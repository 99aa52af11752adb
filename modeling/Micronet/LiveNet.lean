import Micronet.NetOps

/-!
# Interface resolution of `LiveNet`

`resolve_iface` picks the physical Ethernet to manage.  A pinned name only has to
be one.  The automatic pick takes the first with carrier; when none has, the live
resolution sets every candidate up and polls for five seconds, the passive one
takes the first name at once.
-/
namespace Micronet
open Interaction Prog

/-- What the resolution asks of sysfs, of `ip link` and of the clock. -/
inductive SysCall
  | listPhysicalEthernet
  | isPhysicalEthernet (name : String)
  /-- sysfs `carrier` reads `1`. -/
  | carrierUpSys (name : String)
  /-- `IFF_UP` in sysfs `flags`. -/
  | linkIsUpSys (name : String)
  /-- `ip link set dev <name> up`. -/
  | ipLinkSetUp (name : String)
  | now
  | sleep (d : Duration)
deriving DecidableEq

abbrev SysCall.Ret : SysCall → Type
  | .listPhysicalEthernet => Except Error (List String)
  | .isPhysicalEthernet _ | .carrierUpSys _ | .linkIsUpSys _ => Bool
  | .ipLinkSetUp _ => Except Error Unit
  | .now => Nat
  | .sleep _ => Unit

abbrev SysSig : Signature := ⟨SysCall, SysCall.Ret⟩

namespace LiveNet

abbrev sys (c : SysCall) : Prog SysSig c.Ret := call (S := SysSig) c

/-- The name that stands for the automatic pick, as an absent name does. -/
def autoIface : String := "auto"

/-- How long the automatic pick waits for a carrier. -/
def autoCarrierWait : Duration := 5000 * 10 ^ 6

def autoCarrierPoll : Duration := 200 * 10 ^ 6

/-- Whether the automatic pick may set candidates up. -/
inductive LinkBringUp
  | live
  | none
deriving DecidableEq, Repr

/-- The first name with carrier. -/
def findCarrier : List String → Prog SysSig (Option String)
  | [] => return none
  | name :: names => do
    if ← sys (.carrierUpSys name) then return some name
    else findCarrier names

/-- One candidate: set up unless it is, and an error is ignored. -/
def setCandidateUp (name : String) : Prog SysSig PUnit := do
  if ← sys (.linkIsUpSys name) then
    return ⟨⟩
  else
    let _ ← sys (.ipLinkSetUp name)
    return ⟨⟩

/-- The poll for a carrier, cut after `n` rounds. -/
def pollCarrier (names : List String) (deadline : Nat) : Nat → Prog SysSig (Option String)
  | 0 => return none
  | n + 1 => do
    match ← findCarrier names with
    | some name => return some name
    | none =>
      let now ← sys .now
      if deadline ≤ now then
        return none
      else
        let _ ← sys (.sleep autoCarrierPoll)
        pollCarrier names deadline n

/-- As many rounds as fit before the deadline, and the one that sees it. -/
def pollRounds : Nat := autoCarrierWait / autoCarrierPoll + 1

/-- The candidates set up, and the first that then shows carrier in time. -/
def waitCarrier (names : List String) : Prog SysSig (Option String) := do
  names.forM setCandidateUp
  let now ← sys .now
  pollCarrier names (now + autoCarrierWait) pollRounds

def resolveAuto (bringUp : LinkBringUp) : ExceptT Error (Prog SysSig) String := do
  let names ← attempt (sys .listPhysicalEthernet)
  match names with
  | [] => throw .noEthernet
  | fallback :: _ =>
    match ← findCarrier names with
    | some name => return name
    | none =>
      let found ← (if bringUp = .live then waitCarrier names else pure none)
      return found.getD fallback

/-- A pinned name must be a physical Ethernet. -/
def resolvePinned (name : String) : ExceptT Error (Prog SysSig) String := do
  let physical ← sys (.isPhysicalEthernet name)
  if physical then return name else throw (.notEthernet name)

def resolveIfaceWith (configured : Option String) (bringUp : LinkBringUp) :
    ExceptT Error (Prog SysSig) String :=
  match configured with
  | none => resolveAuto bringUp
  | some name => if name = autoIface then resolveAuto bringUp else resolvePinned name

def resolveIface (configured : Option String) : ExceptT Error (Prog SysSig) String :=
  resolveIfaceWith configured .live

def resolveIfacePassive (configured : Option String) : ExceptT Error (Prog SysSig) String :=
  resolveIfaceWith configured .none

/-! ## The clock -/

/-- An environment with a clock that does not go back. -/
structure Clocked {σ : Type} (E : Env SysSig σ) (clock : σ → Nat) : Prop where
  /-- A look at the clock answers what it says after it. -/
  now : ∀ s r t, E .now s r t → r = clock t
  /-- A sleep takes its time, or more. -/
  sleep : ∀ d s r t, E (.sleep d) s r t → clock s + d ≤ clock t
  /-- Any other call may take time too. -/
  mono : ∀ c s r t, E c s r t → clock s ≤ clock t

section Clock
variable {σ : Type} {E : Env SysSig σ} {clock : σ → Nat}

theorem Clocked.exec_mono (hc : Clocked E clock) {α : Type} {p : Prog SysSig α} {s t : σ} {a : α}
    (h : p.Exec E s a t) : clock s ≤ clock t :=
  h.keeps (I := fun u => clock s ≤ clock u)
    (fun c u r v hu he => Nat.le_trans hu (hc.mono c u r v he)) (Nat.le_refl _)

end Clock
end LiveNet
end Micronet
