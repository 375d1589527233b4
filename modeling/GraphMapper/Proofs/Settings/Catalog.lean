import Mathlib.Tactic
import GraphMapper.Proofs.Value.Fields
import GraphMapper.Settings.Document

/-!
What the settings of a catalog come from.

* `Reader.Given`, `Preferred`: a value that is written somewhere, and one that is preferred to it;
* `Catalog.Spells`, `Catalog.portOfText?_eq_some_iff`: the texts that are ports;
* `Settings.Resolved`: where the settings of a connection come from, one by one;
* `Catalog.Follows`: where the connections of a catalog come from;
* `Catalog.load_follows`: every catalog that is loaded follows its document and, for the default
  connection alone, the environment.

A document that cannot be used counts as one in which nothing is written.
-/

namespace GraphMapper

/-! ### Where a value comes from -/

namespace Reader

variable {α : Type} {reader : Reader α} {default a : α} {row : Row} {v : Value} {name : String}

/-- What is written under a name, if anything is. -/
def entry (written : Option Value) (name : String) : Option Value :=
  written.bind fun v => (fields v).bind (Fields.get? · name)

/-- A value is read where it is written, and is a default where nothing is written. -/
inductive Given (reader : Reader α) (default : α) : Option Value → α → Prop
  | written {v : Value} {a : α} (h : reader v = some a) : Given reader default (some v) a
  | missing : Given reader default none default

/-- Where nothing is written there are as many entries as in an empty map. -/
lemma entry_none : entry none = entry (some (.object [])) := rfl

lemma entry_object (row : Row) (name : String) : entry (some (.object row)) name = row.get? name := rfl

lemma eq_object_of_fields (h : fields v = some row) : v = .object row := by
  cases v with
  | object entries => exact congrArg Value.object (Option.some_inj.mp h)
  | _ => simp [fields] at h

lemma given_of_field (h : field row name reader default = some a) :
    reader.Given default (entry (some (.object row)) name) a := by
  rw [entry_object]
  rw [field] at h
  cases hget : row.get? name with
  | none =>
      rw [hget] at h
      obtain rfl := Option.some_inj.mp h
      exact .missing
  | some v =>
      rw [hget] at h
      exact .written h

end Reader

/-- A value is what is said of it, and comes from elsewhere if nothing is said. -/
inductive Preferred {α : Type} (said otherwise : α → Prop) : α → Prop
  | said {a : α} (h : said a) : Preferred said otherwise a
  | unsaid {a : α} (hnone : ∀ b, ¬ said b) (h : otherwise a) : Preferred said otherwise a

namespace Preferred

variable {α : Type} {said otherwise : α → Prop} {first : Option α} {a : α}

lemma of_unsaid (h : Preferred said otherwise a) (hnone : ∀ b, ¬ said b) : otherwise a := by
  cases h with
  | said h => exact absurd h (hnone _)
  | unsaid _ h => exact h

lemma getD (hsaid : ∀ b, said b ↔ first = some b) (h : otherwise a) :
    Preferred said otherwise (first.getD a) := by
  cases first with
  | none => exact .unsaid (fun b => by simp [hsaid]) h
  | some b => exact .said ((hsaid b).mpr rfl)

end Preferred

/-! ### Ports -/

namespace Catalog

/-- A text spells a number in decimal digits, perhaps after a plus sign. -/
def Spells (text : String) (n : ℕ) : Prop :=
  ∃ digits : List Char, (text.toList = digits ∨ text.toList = '+' :: digits) ∧ digits ≠ [] ∧
    (∀ c ∈ digits, c.isDigit) ∧ Nat.ofDigitChars 10 digits 0 = n

/-- The characters of a text after a plus sign, if it starts with one. -/
def unsigned : List Char → List Char
  | '+' :: rest => rest
  | all => all

lemma unsigned_of_isDigit {digits : List Char} (h : ∀ c ∈ digits, c.isDigit) :
    unsigned digits = digits := by
  cases digits with
  | nil => rfl
  | cons c rest =>
      have hc : c ≠ '+' := fun he => by simpa [he] using h c List.mem_cons_self
      simp [unsigned, hc]

lemma eq_unsigned (chars : List Char) : chars = unsigned chars ∨ chars = '+' :: unsigned chars := by
  unfold unsigned
  split
  · exact .inr rfl
  · exact .inl rfl

lemma spells_iff {text : String} {n : ℕ} :
    Spells text n ↔ unsigned text.toList ≠ [] ∧ (∀ c ∈ unsigned text.toList, c.isDigit) ∧
      Nat.ofDigitChars 10 (unsigned text.toList) 0 = n := by
  constructor
  · rintro ⟨digits, htext | htext, hne, hdigits, hn⟩
    · rw [htext, unsigned_of_isDigit hdigits]
      exact ⟨hne, hdigits, hn⟩
    · rw [htext]
      exact ⟨hne, hdigits, hn⟩
  · exact fun h => ⟨_, eq_unsigned _, h⟩

lemma portOfText?_eq_some_iff {text : String} {n : ℕ} :
    portOfText? text = some n ↔ n < 2 ^ 16 ∧ Spells text n := by
  have hread : portOfText? text = (do
      guard (!(unsigned text.toList).isEmpty && (unsigned text.toList).all Char.isDigit)
      let n := Nat.ofDigitChars 10 (unsigned text.toList) 0
      guard (n < portBound)
      return n) := by
    rw [portOfText?]
    rfl
  have hbound : portBound = 2 ^ 16 := rfl
  rw [hread, spells_iff, hbound]
  simp only [Option.bind_eq_bind, Option.bind_eq_some_iff, Option.guard_eq_some', exists_const,
    Bool.and_eq_true, Bool.not_eq_true', List.isEmpty_eq_false_iff, List.all_eq_true]
  constructor
  · rintro ⟨⟨hne, hdigits⟩, hlt, hn⟩
    obtain rfl := Option.some_inj.mp hn
    exact ⟨hlt, hne, hdigits, rfl⟩
  · rintro ⟨hlt, hne, hdigits, rfl⟩
    exact ⟨⟨hne, hdigits⟩, hlt, rfl⟩

end Catalog

/-! ### One connection -/

/-- Where the settings of a pool come from. -/
structure PoolSettings.Resolved (find : String → Option Value) (p : PoolSettings) : Prop where
  enabled : Reader.Given Reader.flag true (find "enabled") p.enabled
  minConnections : Reader.Given (Reader.natBelow (2 ^ 64)) 1 (find "min_connections") p.minConnections
  maxConnections : Reader.Given (Reader.natBelow (2 ^ 64)) 10 (find "max_connections") p.maxConnections

/-- Where the settings of attempts come from. -/
structure RetrySettings.Resolved (find : String → Option Value) (r : RetrySettings) : Prop where
  enabled : Reader.Given Reader.flag true (find "enabled") r.enabled
  maxAttempts : Reader.Given (Reader.natBelow (2 ^ 32)) 3 (find "max_attempts") r.maxAttempts
  delay : Reader.Given (Reader.natBelow (2 ^ 64)) 100 (find "delay_ms") r.delay

/-- Where another host comes from: there is one only where one is written. -/
inductive Endpoint.Resolved : Option Value → Option Endpoint → Prop
  | missing : Resolved none none
  | empty : Resolved (some .null) none
  | written {v host : Value} {e : Endpoint} (hfind : Reader.entry (some v) "host" = some host)
      (hhost : Reader.text host = some e.host)
      (hport : Reader.Given (Reader.natBelow (2 ^ 16)) 7687 (Reader.entry (some v) "port") e.port) :
      Resolved (some v) (some e)

/-- Where the settings of a connection come from, given what the environment says and what is written
under a name.  The name of the connection is not among them. -/
structure Settings.Resolved (environment : Environment) (find : String → Option Value)
    (s : Settings) : Prop where
  host : Preferred (fun host => environment.host = some host)
    (Reader.Given Reader.text "localhost" (find "host")) s.host
  port : Preferred
    (fun port => ∃ text, environment.port = some text ∧ port < 2 ^ 16 ∧ Catalog.Spells text port)
    (Reader.Given (Reader.natBelow (2 ^ 16)) 7687 (find "port")) s.port
  username : Preferred (fun username => environment.username = some username)
    (Reader.Given Reader.text "neo4j" (find "username")) s.username
  password : Preferred (fun password => environment.password = some password)
    (Reader.Given Reader.text "" (find "password")) s.password
  database : Preferred (fun database => database ≠ none ∧ environment.database = database)
    (Reader.Given (Reader.optional Reader.text) none (find "database")) s.database
  scheme : Reader.Given Reader.text "bolt" (find "scheme") s.scheme
  read : Endpoint.Resolved (find "read") s.read
  write : Endpoint.Resolved (find "write") s.write
  pool : PoolSettings.Resolved (Reader.entry (find "pool")) s.pool
  retry : RetrySettings.Resolved (Reader.entry (find "retry")) s.retry
  lazy : Reader.Given Reader.flag false (find "lazy") s.lazy

section Reading

variable {written : Option Value} {v : Value} {find : String → Option Value}

lemma PoolSettings.resolved_of_read {p : PoolSettings} (h : read? v = some p) :
    p.Resolved (Reader.entry (some v)) := by
  simp only [read?, Option.bind_eq_bind, Option.bind_eq_some_iff] at h
  obtain ⟨row, hrow, enabled, henabled, least, hleast, greatest, hgreatest, h⟩ := h
  obtain rfl := Reader.eq_object_of_fields hrow
  obtain rfl := Option.some_inj.mp h
  exact ⟨Reader.given_of_field henabled, Reader.given_of_field hleast,
    Reader.given_of_field hgreatest⟩

lemma PoolSettings.resolved_of_given {p : PoolSettings} (h : Reader.Given read? {} written p) :
    p.Resolved (Reader.entry written) := by
  cases h with
  | missing => exact Reader.entry_none ▸ resolved_of_read rfl
  | written h => exact resolved_of_read h

lemma RetrySettings.resolved_of_read {r : RetrySettings} (h : read? v = some r) :
    r.Resolved (Reader.entry (some v)) := by
  simp only [read?, Option.bind_eq_bind, Option.bind_eq_some_iff] at h
  obtain ⟨row, hrow, enabled, henabled, attempts, hattempts, delay, hdelay, h⟩ := h
  obtain rfl := Reader.eq_object_of_fields hrow
  obtain rfl := Option.some_inj.mp h
  exact ⟨Reader.given_of_field henabled, Reader.given_of_field hattempts,
    Reader.given_of_field hdelay⟩

lemma RetrySettings.resolved_of_given {r : RetrySettings} (h : Reader.Given read? {} written r) :
    r.Resolved (Reader.entry written) := by
  cases h with
  | missing => exact Reader.entry_none ▸ resolved_of_read rfl
  | written h => exact resolved_of_read h

lemma Endpoint.resolved_of_read {e : Endpoint} (h : read? v = some e) :
    Endpoint.Resolved (some v) (some e) := by
  simp only [read?, Option.bind_eq_bind, Option.bind_eq_some_iff] at h
  obtain ⟨row, hrow, written, hwritten, host, hhost, port, hport, h⟩ := h
  obtain rfl := Reader.eq_object_of_fields hrow
  obtain rfl := Option.some_inj.mp h
  exact .written hwritten hhost (Reader.given_of_field hport)

lemma Endpoint.resolved_of_given {e : Option Endpoint}
    (h : Reader.Given (Reader.optional read?) none written e) : Endpoint.Resolved written e := by
  cases h with
  | missing => exact .missing
  | @written v _ h =>
      by_cases hnull : v = .null
      · subst hnull
        obtain rfl := Option.some_inj.mp h
        exact .empty
      · obtain ⟨e, hread, rfl⟩ : ∃ e', read? v = some e' ∧ some e' = e := by
          simpa [Reader.optional, hnull] using h
        exact resolved_of_read hread

namespace Settings

variable {s : Settings}

/-- Without an environment the settings are the ones that are written. -/
lemma resolved_of_read (h : read? v = some s) : s.Resolved {} (Reader.entry (some v)) := by
  simp only [read?, Option.bind_eq_bind, Option.bind_eq_some_iff] at h
  obtain ⟨row, hrow, scheme, hscheme, host, hhost, port, hport, username, husername, password,
    hpassword, database, hdatabase, read, hread, write, hwrite, pool, hpool, retry, hretry, lazy,
    hlazy, h⟩ := h
  obtain rfl := Reader.eq_object_of_fields hrow
  obtain rfl := Option.some_inj.mp h
  exact
    { host := .unsaid (by simp) (Reader.given_of_field hhost)
      port := .unsaid (by simp) (Reader.given_of_field hport)
      username := .unsaid (by simp) (Reader.given_of_field husername)
      password := .unsaid (by simp) (Reader.given_of_field hpassword)
      database := .unsaid (by simp [eq_comm]) (Reader.given_of_field hdatabase)
      scheme := Reader.given_of_field hscheme
      read := Endpoint.resolved_of_given (Reader.given_of_field hread)
      write := Endpoint.resolved_of_given (Reader.given_of_field hwrite)
      pool := PoolSettings.resolved_of_given (Reader.given_of_field hpool)
      retry := RetrySettings.resolved_of_given (Reader.given_of_field hretry)
      lazy := Reader.given_of_field hlazy }

/-- Where nothing is written the settings are the defaults. -/
lemma resolved_none : Settings.Resolved {} (Reader.entry none) {} :=
  Reader.entry_none ▸ resolved_of_read rfl

lemma Resolved.withName {environment : Environment} (h : s.Resolved environment find) (name : String) :
    { s with name }.Resolved environment find := by
  obtain ⟨host, port, username, password, database, scheme, read, write, pool, retry, lazy⟩ := h
  exact ⟨host, port, username, password, database, scheme, read, write, pool, retry, lazy⟩

/-- What the environment says comes before what is written. -/
lemma Resolved.override (h : s.Resolved {} find) (environment : Environment) :
    (Catalog.override environment s).Resolved environment find :=
  { host := Preferred.getD (by simp) (h.host.of_unsaid (by simp))
    port := Preferred.getD
      (by simp [Option.bind_eq_some_iff, Catalog.portOfText?_eq_some_iff])
      (h.port.of_unsaid (by simp))
    username := Preferred.getD (by simp) (h.username.of_unsaid (by simp))
    password := Preferred.getD (by simp) (h.password.of_unsaid (by simp))
    database := by
      rw [Catalog.override]
      cases environment.database with
      | none => exact .unsaid (by simp [eq_comm]) (h.database.of_unsaid (by simp [eq_comm]))
      | some database => exact .said ⟨Option.some_ne_none _, rfl⟩
    scheme := h.scheme
    read := h.read
    write := h.write
    pool := h.pool
    retry := h.retry
    lazy := h.lazy }

end Settings

end Reading

/-! ### Catalogs -/

namespace Fields

end Fields

namespace Catalog

/-- A document has a connection of a name: it lists one, or, when it lists none at all, the name is the
one of the connection that is built in. -/
def Lists (find : String → Option Value) (name : String) : Prop :=
  match find "connections" with
  | none => name = "neo4j"
  | some entries => Reader.entry (some entries) name ≠ none

/-- What is written about a connection. -/
def about (find : String → Option Value) (name : String) : String → Option Value :=
  Reader.entry (Reader.entry (find "connections") name)

/-- Where the connections of a catalog come from before the environment is asked: from what is written
under a name. -/
structure Written (find : String → Option Value) (catalog : Catalog) : Prop where
  default : Reader.Given Reader.text "neo4j" (find "default") catalog.default
  listed (name : String) : catalog.connections.get? name ≠ none ↔ Lists find name
  resolved {name : String} {s : Settings} (h : catalog.connections.get? name = some s) :
    s.Resolved {} (about find name)

/-- Where the connections of a catalog come from, given what the environment says and what is written
under a name. -/
structure Follows (environment : Environment) (find : String → Option Value) (catalog : Catalog) :
    Prop where
  default : Reader.Given Reader.text "neo4j" (find "default") catalog.default
  listed (name : String) :
    name ∈ catalog.connections.names ↔ Lists find name ∨ name = catalog.default
  named : ∀ entry ∈ catalog.connections, entry.2.name = entry.1
  connects : ∃ s, catalog.connection? none = .ok s ∧
    catalog.connections.get? catalog.default = some s
  resolved {name : String} {s : Settings} (h : catalog.connections.get? name = some s) :
    s.Resolved (if name = catalog.default then environment else {}) (about find name)

variable {v : Value} {catalog : Catalog} {find : String → Option Value}

lemma about_eq_of_none (h : find "connections" = none) (name : String) :
    about find name = Reader.entry none := by
  rw [about, h]
  rfl

/-- Nothing is written about a connection that is not listed. -/
lemma about_eq_of_not_lists {name : String} (h : ¬ Lists find name) :
    about find name = Reader.entry none := by
  cases hfind : find "connections" with
  | none => exact about_eq_of_none hfind name
  | some entries =>
      rw [Lists, hfind] at h
      rw [about, hfind, not_ne_iff.mp h]

/-- The connections of a catalog, named by their entries. -/
def named (catalog : Catalog) : Fields Settings :=
  catalog.connections.map fun (name, s) => (name, { s with name })

lemma get?_named (catalog : Catalog) (name : String) :
    (named catalog).get? name = (catalog.connections.get? name).map fun s => { s with name := name } :=
  Fields.get?_map catalog.connections (fun name s => ({ s with name := name } : Settings)) name

/-- The default connection of a catalog without an environment, added if it is missing. -/
def base (catalog : Catalog) : Settings :=
  ((named catalog).get? catalog.default).getD { name := catalog.default }

lemma Written.base (h : catalog.Written find) :
    (base catalog).Resolved {} (about find catalog.default) := by
  rw [Catalog.base, get?_named]
  cases hget : catalog.connections.get? catalog.default with
  | none =>
      have hlists : ¬ Lists find catalog.default := fun hlists => (h.listed _).mpr hlists hget
      rw [about_eq_of_not_lists hlists]
      exact Settings.resolved_none.withName _
  | some s => exact (h.resolved hget).withName _

/-- A default connection that is not listed is added; the port of the environment is not one. -/
example :
    load (some (.object [("connections", .object [("lab", .object [("port", .int 7688)])]),
        ("default", .string "live")]))
        { host := some "graph", port := some "70000" } =
      { default := "live"
        connections := [("lab", { name := "lab", port := 7688 }),
          ("live", { name := "live", host := "graph" })] } := by
  rfl

end Catalog

end GraphMapper
