import Mathlib.Data.List.DropRight
import Micronet.DaemonRun

/-!
# What a history shows

What is said of whole runs is read off the records of their steps: the
carrier and the time a tick saw, the verdict it recorded, what was applied and what
was adopted.  `sinceLast` is the part of a history after the last record of a kind.
-/
namespace Micronet
open Interaction Prog

variable {ω : Type}

/-! ## Events -/

def Event.carrier : Event ExtSig ω → Option Bool
  | ⟨.ctl (.net (.carrierUp _)), _, up⟩ => some up
  | _ => none

def Event.time : Event ExtSig ω → Option Instant
  | ⟨.now, _, now⟩ => some now
  | _ => none

def Event.loaded : Event ExtSig ω → Option Config
  | ⟨.loadJson, _, .ok cfg⟩ => some cfg
  | _ => none

/-- The configuration of an apply. -/
def Event.applied : Event ExtSig ω → Option Config
  | ⟨.apply cfg, _, _⟩ => some cfg
  | _ => none

/-- The status of an apply that succeeded. -/
def Event.adopted : Event ExtSig ω → Option Status
  | ⟨.apply _, _, .ok st⟩ => some st
  | _ => none

/-! ## Records -/

namespace Record
variable (r : Record ω)

def carrier : Option Bool := r.events.findSome? Event.carrier

def time : Option Instant := r.events.findSome? Event.time

def loaded : Option Config := r.events.findSome? Event.loaded

def applied : List Config := r.events.filterMap Event.applied

def adopted : Option Status := r.events.findSome? Event.adopted

/-- The step is a tick on an interface. -/
def Watches : Prop := r.kind = .tick ∧ r.before.1.status.iface ≠ ""

instance : Decidable r.Watches := inferInstanceAs (Decidable (_ ∧ _))

/-- When a tick without carrier saw the loss. -/
def lossTime : Option Instant :=
  if r.Watches ∧ r.carrier = some false then r.time else none

/-- The verdict a tick recorded. -/
def verdict : Option Verdict :=
  if r.kind = .tick ∧ r.before.1.status.iface = "" then some (.unhealthy "empty iface")
  else if r.Watches ∧ r.carrier = some true then some (assessed r.before.1.status.mode r.events)
  else none

/-- The reason of a tick that was recorded unhealthy. -/
def failure : Option String :=
  match r.verdict with
  | some (.unhealthy reason) => some reason
  | _ => none

variable {r}

theorem verdict_of_ne_tick (h : r.kind ≠ .tick) : r.verdict = none := by
  simp [verdict, Watches, h]

theorem verdict_unnamed (h : r.kind = .tick) (hiface : r.before.1.status.iface = "") :
    r.verdict = some (.unhealthy "empty iface") := if_pos ⟨h, hiface⟩

theorem verdict_up (h : r.Watches) (hup : r.carrier = some true) :
    r.verdict = some (assessed r.before.1.status.mode r.events) := by
  rw [verdict, if_neg fun he => h.2 he.2, if_pos ⟨h, hup⟩]

theorem lossTime_down (h : r.Watches) (hdown : r.carrier = some false) : r.lossTime = r.time :=
  if_pos ⟨h, hdown⟩

theorem lossTime_up (hup : r.carrier ≠ some false) : r.lossTime = none :=
  if_neg fun h => hup h.2

theorem lossTime_of_ne_tick (h : r.kind ≠ .tick) : r.lossTime = none := by
  simp [lossTime, Watches, h]

end Record

/-- The history after its last record that satisfies `p`. -/
def sinceLast (p : Record ω → Bool) (h : List (Record ω)) : List (Record ω) :=
  h.rtakeWhile fun r => !p r

@[simp] theorem sinceLast_nil (p : Record ω → Bool) : sinceLast p [] = [] := List.rtakeWhile_nil _

theorem sinceLast_snoc (p : Record ω → Bool) (h : List (Record ω)) (r : Record ω) :
    sinceLast p (h ++ [r]) = if p r then [] else sinceLast p h ++ [r] := by
  rw [sinceLast, List.rtakeWhile_concat]
  cases p r <;> rfl

theorem sinceLast_suffix (p : Record ω → Bool) (h : List (Record ω)) : sinceLast p h <:+ h :=
  List.rtakeWhile_suffix _ _

/-! ## Ticks with carrier -/

section CtlOnly
variable {seg : Log ExtSig ω} (h : CtlOnly seg)
include h

theorem CtlOnly.applied : seg.filterMap Event.applied = [] := by
  refine List.filterMap_eq_nil_iff.mpr fun e he => ?_
  obtain ⟨op, pre, ret⟩ := e
  obtain ⟨c, rfl, _⟩ := h _ he
  rfl

theorem CtlOnly.adopted : seg.findSome? Event.adopted = none := by
  refine List.findSome?_eq_none_iff.mpr fun e he => ?_
  obtain ⟨op, pre, ret⟩ := e
  obtain ⟨c, rfl, _⟩ := h _ he
  rfl

end CtlOnly

theorem assessed_cons {mode : Mode} {e : Event ExtSig ω} {l : Log ExtSig ω}
    (hcidr : Event.cidr e = none) (hproc : Event.proc mode e = none) :
    assessed mode (e :: l) = assessed mode l := by
  rw [assessed, lastOf_cons, lastOf_cons, hcidr, hproc, Option.or_none, Option.or_none, ← assessed]

/-- The carrier and the time do not change what the last answers call for. -/
theorem assessed_linked (mode : Mode) (i : String) (up : Bool) (now : Instant) (w w₁ : ω)
    (seg : Log ExtSig ω) :
    assessed mode (⟨.ctl (.net (.carrierUp i)), w, up⟩ :: ⟨.now, w₁, now⟩ :: seg) =
      assessed mode seg := by
  rw [assessed_cons rfl (by cases mode <;> rfl), assessed_cons rfl (by cases mode <;> rfl)]

end Micronet
