import RoverFleet.Proofs.Echo
import RoverFleet.Proofs.Flags

/-!
# Output and exit codes of the command

Only a run that went well writes on the output, and its exit code is 0. Errors go to the error
stream behind the log, and a crash leaves the output empty. What only concerns the log changes
neither the output nor the exit code.
-/
namespace RoverFleet.CommandLine
open Settings Files

section Arguments
variable {arguments : List String} {items : List Item}

namespace Request

end Request

end Arguments

section Seen
variable {L : Libraries} (sys : System) {f : Flag} (time time' : String)

namespace Outcome

variable (hL : L.Documented)
include hL

end Outcome

variable (hL : L.Documented) (hcompletion : asksCompletion sys = false)
include hL hcompletion

end Seen

section Streams
variable {L : Libraries} {sys : System} {arguments : List String} {s : Settings}
  {journal : List Event} {r : Report}

/-- The arguments ask for a run under these settings, whose simulation has this journal and ends
with this report. -/
def Yields (L : Libraries) (sys : System) (arguments : List String) (s : Settings)
    (journal : List Event) (r : Report) : Prop :=
  ∃ o, Request.read arguments = .ok (.run o) ∧
    Settings.load L.rules sys o.config none o.settings = .ok s ∧
    Simulation.ofFile sys (some s.base.text) s.encoding o.file = .ok ⟨journal, .ok r⟩

/-- A report of a run that went well is a success on an orderly plateau. -/
theorem Yields.success (hy : Yields L sys arguments s journal r) (hok : r.ok = true) :
    ∃ (p : Plateau) (source : Option String), p.Orderly ∧ r = Simulation.success p source := by
  obtain ⟨o, -, -, hfile⟩ := hy
  unfold Simulation.ofFile at hfile
  split at hfile
  · next text htext =>
    have hresult : (Simulation.ofText text (some o.file)).result = .ok r := by
      rw [Except.ok.inj hfile]
    rcases Simulation.ofText_ok_cases hresult with ⟨p, hrun, rfl⟩ | ⟨f, rfl⟩
    · exact ⟨p, _, (Script.run_orderly hrun).1, rfl⟩
    · cases hok
  · cases hfile
    cases hok
  · cases hfile

section Documented
variable (hL : L.Documented) (hcompletion : asksCompletion sys = false)
include hL

include hcompletion

theorem Yields.run_eq (hy : Yields L sys arguments s journal r) (time : String) :
    run L sys time arguments = Outcome.ofReport L sys (L.log sys s time journal) r s := by
  obtain ⟨o, hread, hload, hfile⟩ := hy
  simp [run, hcompletion, hL.request_ok_iff.mpr hread, Outcome.ofOrder, hload, Outcome.ofSettings,
    hfile, Outcome.ofSimulation]

end Documented

end Streams

end RoverFleet.CommandLine
