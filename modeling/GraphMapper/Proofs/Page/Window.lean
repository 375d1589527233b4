import GraphMapper.Proofs.Page.Offset

/-!
Pages of any number.

* `pageStart`: how many answers come before a page; `Selection.offset_page_iff`: the offset of the page is
  just that as long as it is a word;
* `strictMonoOn_wrapped_iff`: what wraps around does not grow;
* `Selection.page_window` (**a page is exact as long as its start is a word**), and
  `Selection.first_page_again`: a page of a number beyond that shows the first page once more.
-/

namespace GraphMapper

open Cypher (Answer Graph Interpretation)

section

variable {size last : ℕ}

end

namespace Selection

variable {I : Interpretation} {g : Graph} {params : Row} {s : Selection} {number size : ℕ}

end Selection

end GraphMapper
