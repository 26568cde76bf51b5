import Cascade.Fault
import Cascade.Notice

/-!
# Reports

A check of a style description meets faults and notices in one order. Work stops at the first
fault, so what was noticed behind it is never told: `Report.ofFindings` draws that line.
-/

namespace Cascade

inductive Finding where
  | fault (fault : Fault)
  | notice (notice : Notice)

/-- An outcome together with the notices up to it. -/
structure Report (α : Type) where
  notices : List Notice
  outcome : Except Fault α

namespace Finding

/-- The first fault. -/
def firstFault? : List Finding → Option Fault
  | [] => none
  | .fault f :: _ => some f
  | .notice _ :: rest => firstFault? rest

/-- The notices before the first fault. -/
def noticesBeforeFault : List Finding → List Notice
  | [] => []
  | .fault _ :: _ => []
  | .notice n :: rest => n :: noticesBeforeFault rest

end Finding

namespace Report

variable {α β : Type}

theorem outcome_eq_ok_of_toOption {r : Report α} {a : α} (h : r.outcome.toOption = some a) :
    r.outcome = .ok a := by
  cases houtcome : r.outcome with
  | error fault => simp [houtcome, Except.toOption] at h
  | ok b =>
    rw [houtcome] at h
    exact congrArg Except.ok (Option.some.inj h)

/-- Reports with the same successes have the same outcomes but for faults. -/
theorem toOption_outcome_congr {first second : Report α}
    (h : ∀ a, first.outcome = .ok a ↔ second.outcome = .ok a) :
    first.outcome.toOption = second.outcome.toOption := by
  cases hfirst : first.outcome with
  | ok a => rw [(h a).mp hfirst]
  | error fault =>
    cases hsecond : second.outcome with
    | ok a => cases hfirst.symm.trans ((h a).mpr hsecond)
    | error other => rfl

def ofExcept (outcome : Except Fault α) : Report α :=
  ⟨[], outcome⟩

/-- The report of a piece of work with these findings that would come to `value`. -/
def ofFindings (findings : List Finding) (value : α) : Report α where
  notices := Finding.noticesBeforeFault findings
  outcome :=
    match Finding.firstFault? findings with
    | some fault => .error fault
    | none => .ok value

/-- Goes on with the value, if there is one. -/
def bind (r : Report α) (next : α → Report β) : Report β :=
  match r.outcome with
  | .error fault => ⟨r.notices, .error fault⟩
  | .ok a => ⟨r.notices ++ (next a).notices, (next a).outcome⟩

theorem outcome_bind_ofExcept_ok_iff {made : Except Fault α} {next : α → Report β} {b : β} :
    ((ofExcept made).bind next).outcome = .ok b ↔
      ∃ a, made = .ok a ∧ (next a).outcome = .ok b := by
  cases made <;> simp [ofExcept, bind]

/-- Adds a notice behind a success. -/
def andNote (r : Report α) (note : Notice) : Report α :=
  match r.outcome with
  | .error fault => ⟨r.notices, .error fault⟩
  | .ok a => ⟨r.notices ++ [note], .ok a⟩

end Report

end Cascade
