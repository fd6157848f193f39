import RoverFleet.CommandLine.Run
import RoverFleet.Proofs.Rows

/-!
# Documented libraries

The libraries without colours keep to all that is known of libraries. Of any such libraries, a text
without escape characters is printed as it is, and arguments are read as the reader reads them.
-/
namespace RoverFleet

theorem Text.dropSequences_of_notMem {s : List Char} (h : '\x1b' ∉ s) : dropSequences s = s := by
  fun_induction dropSequences s with
  | case1 => rfl
  | case2 => simp at h
  | case3 => simp at h
  | case4 c s hc ih => rw [ih (List.not_mem_of_not_mem_cons h)]

namespace CommandLine.Libraries
open Files

theorem standard_documented : standard.Documented where
  rules := Settings.Rules.standard_documented
  lawful _ _ := Console.standard_lawful
  plain _ _ := Console.standard_plain
  foreign _ := rfl
  request arguments := by
    change ((Request.read arguments).mapError UsageError.lines).toOption = _
    cases Request.read arguments <;> rfl
  strip s h := by
    change String.ofList (Text.dropSequences s.toList) = s
    rw [Text.dropSequences_of_notMem h, String.ofList_toList]

section Documented
variable {L : Libraries} (hL : L.Documented)
include hL

theorem Documented.request_ok_iff {arguments : List String} {r : Request} :
    L.request arguments = .ok r ↔ Request.read arguments = .ok r := by
  have hsame := hL.request arguments
  cases hrequest : L.request arguments <;> cases hread : Request.read arguments <;>
    simp_all [Except.toOption]

end Documented

end CommandLine.Libraries

end RoverFleet
