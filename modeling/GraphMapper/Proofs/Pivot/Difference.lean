import GraphMapper.Proofs.Value.Keys
import GraphMapper.Relation.Pivot

/-!
Differences of lists of keys.

* `PivotChanges.firsts_others`, `PivotChanges.firsts_common`: the keys of a list that are not among
  others, and those that are;
* `PivotChanges.Differs`: changes that are the difference of two sets of keys, with what follows for them;
* `PivotChanges.diff_of_sets` (**the difference is that of the sets**);
* `PivotChanges.Divides`: changes that divide a list of keys into those that are current and the others;
* `PivotChanges.applied`: what changes make of a set of keys;
* `PivotChanges.toggle_involutive` (**toggling twice undoes it**).
-/

namespace GraphMapper

namespace PivotChanges

open Value (Firsts keyTexts keyTexts_append keyTexts_distinct nodup_append eq_nil_of_keyTexts
  distinct_firsts isKeyOf_iff_mem_keyTexts)

/-- Keys that are not among others. -/
lemma firsts_others (values others : List Value) :
    Firsts values (keyTexts others)ᶜ
      ((Value.distinct values).filter fun key => !Value.isKeyOf (Value.distinct others) key) := by
  rw [← Set.univ_inter (keyTexts others)ᶜ]
  refine (distinct_firsts values).filter fun v => ?_
  rw [Bool.not_eq_true', ← Bool.not_eq_true, isKeyOf_iff_mem_keyTexts, keyTexts_distinct,
    Set.mem_compl_iff]

/-- Keys that are among others. -/
lemma firsts_common (values others : List Value) :
    Firsts values (keyTexts others)
      ((Value.distinct values).filter (Value.isKeyOf (Value.distinct others))) := by
  rw [← Set.univ_inter (keyTexts others)]
  refine (distinct_firsts values).filter fun v => ?_
  rw [isKeyOf_iff_mem_keyTexts, keyTexts_distinct]

/-- The changes are the difference of two sets of keys, each kind of them in the order of the list that
it is taken from. -/
structure Differs (changes : PivotChanges) (desired current : List Value) (refresh : Bool) : Prop where
  attached : Firsts desired (keyTexts current)ᶜ changes.attached
  detached : Firsts current (keyTexts desired)ᶜ changes.detached
  updated : Firsts desired (if refresh then keyTexts current else ∅) changes.updated

lemma differs_diff (desired current : List Value) (refresh : Bool) :
    (diff desired current refresh).Differs desired current refresh where
  attached := firsts_others desired current
  detached := firsts_others current desired
  updated := by
    cases refresh with
    | true => exact firsts_common desired current
    | false => exact ⟨by simp [diff, keyTexts], nofun, .nil⟩

section

variable {changes : PivotChanges} {desired current : List Value} {refresh : Bool}
  (h : changes.Differs desired current refresh)

include h

/-- No key is told twice, neither of one kind nor of two. -/
lemma Differs.nodup :
    ((changes.attached ++ changes.detached ++ changes.updated).map Value.keyText).Nodup := by
  have hupdated : keyTexts changes.updated ⊆ keyTexts desired ∩ keyTexts current := by
    rw [h.updated.texts]
    refine Set.inter_subset_inter_right _ ?_
    cases refresh with
    | true => exact subset_rfl
    | false => exact Set.empty_subset _
  have hattached (text) (htext : text ∈ keyTexts changes.attached) : text ∉ keyTexts current :=
    (h.attached.texts.subset htext).2
  refine nodup_append (nodup_append h.attached.nodup h.detached.nodup ?_) h.updated.nodup ?_
  · exact fun text hleft hright => hattached text hleft (h.detached.texts.subset hright).1
  · intro text hleft hright
    rw [keyTexts_append] at hleft
    rcases hleft with hleft | hleft
    · exact hattached text hleft (hupdated hright).2
    · exact (h.detached.texts.subset hleft).2 (hupdated hright).1

/-- Without what is detached and with what is attached the current keys are the desired ones. -/
lemma Differs.reached :
    keyTexts current \ keyTexts changes.detached ∪ keyTexts changes.attached = keyTexts desired := by
  rw [h.attached.texts, h.detached.texts, ← Set.sdiff_eq, ← Set.sdiff_eq, Set.sdiff_sdiff_right_self,
    Set.inter_comm, Set.inter_union_sdiff]

/-- Where the current keys are the desired ones, nothing is left to do. -/
lemma Differs.eq_nil (hsame : keyTexts current = keyTexts desired) :
    changes.attached = [] ∧ changes.detached = [] := by
  refine ⟨eq_nil_of_keyTexts ?_, eq_nil_of_keyTexts ?_⟩
  · rw [h.attached.texts, hsame, Set.inter_compl_self]
  · rw [h.detached.texts, hsame, Set.inter_compl_self]

end

/-- **The difference is that of the sets**: for whatever lists of keys, with repetitions, of any kinds,
compared by their texts.  Attached are the desired keys that are not current, detached the current ones
that are not desired, updated those that are both if there is something to write, each of them once, as
it is met first and in the order of its list, and no key is told in two ways.  Without what is detached
and with what is attached the current keys are the desired ones, and for a list of just these nothing is
attached or detached any more. -/
theorem diff_of_sets (desired current : List Value) (refresh : Bool) :
    let changes := diff desired current refresh
    changes.Differs desired current refresh ∧
    ((changes.attached ++ changes.detached ++ changes.updated).map Value.keyText).Nodup ∧
    keyTexts current \ keyTexts changes.detached ∪ keyTexts changes.attached = keyTexts desired ∧
    ∀ later again, keyTexts later = keyTexts desired →
      (diff desired later again).attached = [] ∧ (diff desired later again).detached = [] :=
  have h := differs_diff desired current refresh
  ⟨h, h.nodup, h.reached, fun later again => (differs_diff desired later again).eq_nil⟩

/-- Of texts and numbers, of which a text and a number look the same and some come twice. -/
theorem diff_of_sets_repeated :
    let desired := [.int 3, .string "1", .int 1, .int 3]
    let current := [.int 1, .int 2, .string "3", .int 2]
    diff desired current true =
        { attached := [.int 3, .string "1"], detached := [.int 2, .string "3"], updated := [.int 1] } ∧
      let later := [.int 1, .int 3, .string "1"]
      keyTexts later = keyTexts desired ∧
        (diff desired later true).attached = [] ∧ (diff desired later true).detached = [] := by
  intro desired current
  have hreached := (diff_of_sets desired current true).2.2
  refine ⟨by decide, ?_⟩
  intro later
  have hlater : keyTexts later = keyTexts desired := by
    refine congrArg (Value.keyText '' ·) (Set.ext fun v => ?_)
    simp [later, desired]
    tauto
  exact ⟨hlater, hreached.2 later true hlater⟩

/-! ### Toggling -/

/-- The keys after changes: what is detached goes, and then what is attached comes. -/
def applied (changes : PivotChanges) (texts : Set String) : Set String :=
  texts \ keyTexts changes.detached ∪ keyTexts changes.attached

/-- The changes divide a list of keys: those that are current are detached, the others attached, each of
them once, as it is met first and in the order of the list. -/
structure Divides (changes : PivotChanges) (keys current : List Value) : Prop where
  attached : Firsts keys (keyTexts current)ᶜ changes.attached
  detached : Firsts keys (keyTexts current) changes.detached
  updated : changes.updated = []

lemma divides_toggle (keys current : List Value) : (toggle keys current).Divides keys current where
  attached := by
    rw [← Set.univ_inter (keyTexts current)ᶜ]
    refine (distinct_firsts keys).filter fun v => ?_
    rw [Bool.not_eq_true', ← Bool.not_eq_true, isKeyOf_iff_mem_keyTexts, Set.mem_compl_iff]
  detached := by
    rw [← Set.univ_inter (keyTexts current)]
    exact (distinct_firsts keys).filter fun v => isKeyOf_iff_mem_keyTexts
  updated := rfl

/-- Each key of the list is attached or detached. -/
lemma toggle_perm (keys current : List Value) :
    ((toggle keys current).attached ++ (toggle keys current).detached).Perm (Value.distinct keys) :=
  List.perm_append_comm.trans (List.filter_append_perm (Value.isKeyOf current) (Value.distinct keys))

section

variable {changes : PivotChanges} {keys current : List Value} (h : changes.Divides keys current)

include h

/-- No key is told twice, neither of one kind nor of two. -/
lemma Divides.nodup : ((changes.attached ++ changes.detached).map Value.keyText).Nodup :=
  nodup_append h.attached.nodup h.detached.nodup fun _ hleft hright =>
    (h.attached.texts.subset hleft).2 (h.detached.texts.subset hright).2

/-- Afterwards a key is there if it was there and is not in the list, or the other way round. -/
lemma Divides.applied_eq :
    changes.applied (keyTexts current) = symmDiff (keyTexts current) (keyTexts keys) := by
  rw [applied, h.attached.texts, h.detached.texts, ← Set.sdiff_eq, Set.sdiff_inter_self_eq_sdiff,
    Set.symmDiff_def]

end

/-- What was attached is detached and what was detached is attached, once the keys have changed. -/
lemma toggle_of_symmDiff {keys current later : List Value}
    (hlater : keyTexts later = symmDiff (keyTexts current) (keyTexts keys)) :
    toggle keys later =
      { attached := (toggle keys current).detached, detached := (toggle keys current).attached } := by
  have hflip : ∀ v ∈ Value.distinct keys, Value.isKeyOf later v = !Value.isKeyOf current v := by
    intro v hv
    have hkey : v.keyText ∈ keyTexts keys :=
      keyTexts_distinct keys ▸ Value.keyText_mem hv
    rw [Bool.eq_iff_iff, Bool.not_eq_true', ← Bool.not_eq_true, isKeyOf_iff_mem_keyTexts,
      isKeyOf_iff_mem_keyTexts, hlater, Set.mem_symmDiff]
    simp [hkey]
  refine congrArg₂ (fun attached detached => (⟨attached, detached, []⟩ : PivotChanges))
    (List.filter_congr fun v hv => ?_) (List.filter_congr hflip)
  rw [hflip v hv, Bool.not_not]

/-- **Toggling twice undoes it**: for whatever lists of keys, with repetitions, of any kinds, compared by
their texts.  The keys of the list, each of them once, are divided into those that are attached and those
that are detached, which leaves the symmetric difference of the current keys and those of the list.  For
any list of just the keys that are left, toggling the same keys detaches what was attached, attaches what
was detached, and leaves the keys that there were at first. -/
theorem toggle_involutive (keys current : List Value) :
    let changes := toggle keys current
    changes.Divides keys current ∧
    (changes.attached ++ changes.detached).Perm (Value.distinct keys) ∧
    ((changes.attached ++ changes.detached).map Value.keyText).Nodup ∧
    changes.applied (keyTexts current) = symmDiff (keyTexts current) (keyTexts keys) ∧
    ∀ later, keyTexts later = changes.applied (keyTexts current) →
      toggle keys later = { attached := changes.detached, detached := changes.attached } ∧
      (toggle keys later).applied (keyTexts later) = keyTexts current := by
  intro changes
  have h : changes.Divides keys current := divides_toggle keys current
  refine ⟨h, toggle_perm keys current, h.nodup, h.applied_eq, fun later hlater => ⟨?_, ?_⟩⟩
  · exact toggle_of_symmDiff (hlater.trans h.applied_eq)
  · rw [(divides_toggle keys later).applied_eq, hlater, h.applied_eq, symmDiff_symmDiff_cancel_right]

/-- A text and a number that look the same, one of them there, and a key that comes twice. -/
theorem toggle_involutive_repeated :
    let keys := [.int 3, .string "1", .int 1, .int 3]
    let current := [.int 1, .int 2, .string "3", .int 2]
    let later := [.int 3, .int 2, .string "3", .string "1", .int 2]
    toggle keys current = { attached := [.int 3, .string "1"], detached := [.int 1] } ∧
      toggle keys later = { attached := [.int 1], detached := [.int 3, .string "1"] } ∧
        (toggle keys later).applied (keyTexts later) = keyTexts current := by
  intro keys current later
  obtain ⟨-, -, -, -, hagain⟩ := toggle_involutive keys current
  have hchanges : toggle keys current = { attached := [.int 3, .string "1"], detached := [.int 1] } := by
    decide
  have hlater : keyTexts later = (toggle keys current).applied (keyTexts current) := by
    have htexts (values : List Value) : keyTexts values = {text | text ∈ values.map Value.keyText} :=
      Set.ext fun text => List.mem_map.symm
    have hcurrent : current.map Value.keyText = ["v:1", "v:2", "s:3", "v:2"] := by decide
    have hlater : later.map Value.keyText = ["v:3", "v:2", "s:3", "s:1", "v:2"] := by decide
    have hattached : [Value.int 3, .string "1"].map Value.keyText = ["v:3", "s:1"] := by decide
    have hdetached : [Value.int 1].map Value.keyText = ["v:1"] := by decide
    rw [hchanges, applied, htexts, htexts, htexts, htexts, hcurrent, hlater, hattached, hdetached]
    ext text
    simp only [Set.mem_union, Set.mem_sdiff, Set.mem_ofPred_eq, List.mem_cons, List.not_mem_nil, or_false]
    constructor
    · rintro (rfl | rfl | rfl | rfl | rfl) <;> simp
    · rintro (⟨rfl | rfl | rfl | rfl, hne⟩ | rfl | rfl) <;> simp_all
  exact ⟨hchanges, hagain later hlater⟩

end PivotChanges

end GraphMapper
