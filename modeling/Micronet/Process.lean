import Micronet.Halting
import Micronet.Probe
import Micronet.LiveNet
import Micronet.LiveDaemon

/-!
# The process and its clock

The models of `apply` and of the loop count instants without a bound.  Here the
methods that add to an instant are written with the `+` that panics, everything else
they call goes to the outside as it is, and the whole process is `run` with its calls
replaced by these (`process`).  What it returns is what the model returns
(`exec_of_process`).
-/
namespace Micronet
open Interaction Prog Monotonic

/-- Calls of the process to the outside. -/
inductive OsCall
  | sys (c : SysCall)
  | probe (c : Probe.ProbeCall)
  /-- What is not looked into: the other methods, and the loop's own calls. -/
  | ext (c : ExtCall)

abbrev OsCall.Ret : OsCall → Type
  | .sys c => c.Ret
  | .probe c => c.Ret
  | .ext c => c.Ret

abbrev OsSig : Signature := ⟨OsCall, OsCall.Ret⟩

abbrev OsM (α : Type) : Type := ExceptT Halt (Prog OsSig) α

namespace Process

abbrev os (c : OsCall) : OsM c.Ret := liftM (call (S := OsSig) c)

def sys (c : SysCall) : OsM c.Ret := os (.sys c)

def ext (c : ExtCall) : OsM c.Ret := os (.ext c)

/-- The probe reads the same clock. -/
def probe : (c : Probe.ProbeCall) → OsM c.Ret
  | .now => sys .now
  | c => os (.probe c)

/-! ## The methods with time arithmetic -/

/-- The candidates set up, and the first that then shows carrier in time. -/
def waitCarrier (names : List String) : OsM (Option String) := do
  (names.forM LiveNet.setCandidateUp).via sys
  let now ← sys .now
  let deadline ← plus now LiveNet.autoCarrierWait
  (LiveNet.pollCarrier names deadline LiveNet.pollRounds).via sys

def resolveAuto : OsM (Except Error String) := do
  match ← sys .listPhysicalEthernet with
  | .error e => return .error e
  | .ok [] => return .error .noEthernet
  | .ok (fallback :: names) =>
    match ← (LiveNet.findCarrier (fallback :: names)).via sys with
    | some name => return .ok name
    | none =>
      let found ← waitCarrier (fallback :: names)
      return .ok (found.getD fallback)

def resolveIface (configured : Option String) : OsM (Except Error String) :=
  match configured with
  | none => resolveAuto
  | some name =>
    if name = LiveNet.autoIface then resolveAuto else (LiveNet.resolvePinned name).run.via sys

def ipv4Poll : Duration := 200 * 10 ^ 6

/-- The wait for an address, for `n` polls; `elapsed` saturates. -/
def pollIpv4 (iface : String) (timeout : Duration) (start : Instant) : Nat → OsM Bool
  | 0 => throw .cut
  | n + 1 => do
    let now ← sys .now
    if now - start < timeout then
      if ← ext (.ctl (.net (.ifaceHasIpv4 iface))) then return true
      else
        let _ ← sys (.sleep ipv4Poll)
        pollIpv4 iface timeout start n
    else
      ext (.ctl (.net (.ifaceHasIpv4 iface)))

def waitIpv4 (n : Nat) (iface : String) (timeout : Duration) : OsM Bool := do
  let start ← sys .now
  pollIpv4 iface timeout start n

variable (decode : Probe.Decoder) (n : Nat)

/-- The methods of both traits. -/
def method : (c : CtlCall) → OsM c.Ret
  | .net (.resolveIface configured) => resolveIface configured
  | .net (.waitIpv4 iface timeout) => waitIpv4 n iface timeout
  | .gw (.probeForeignDhcp iface timeout) =>
    viaE probe (Probe.liveProbe decode n iface timeout).run
  | c => ext (.ctl c)

/-- The calls of the loop. -/
def outside : (c : ExtCall) → OsM c.Ret
  | .apply cfg => (applyWith cfg).run.via (method decode n)
  | .ctl c => method decode n c
  | .now => sys .now
  | c => ext c

end Process

/-! ## The process -/

inductive ProcCall
  | mem (f : Mem → Mem)
  | os (c : OsCall)

abbrev ProcCall.Ret : ProcCall → Type
  | .mem _ => Mem
  | .os c => c.Ret

abbrev ProcSig : Signature := ⟨ProcCall, ProcCall.Ret⟩

variable {ω : Type} {X : Env OsSig ω}

/-- The memory beside an outside. -/
def procEnv (X : Env OsSig ω) : Env ProcSig (Mem × ω)
  | .mem f, s, r, t => r = s.1 ∧ t = (f s.1, s.2)
  | .os c, s, r, t => X c s.2 r t.2 ∧ t.1 = s.1

namespace Process
variable (decode : Probe.Decoder) (n : Nat)

abbrev mem (f : Mem → Mem) : ExceptT Halt (Prog ProcSig) Mem :=
  liftM (call (S := ProcSig) (.mem f))

def onOs (c : OsCall) : ExceptT Halt (Prog ProcSig) c.Ret := liftM (call (S := ProcSig) (.os c))

/-- The calls of the daemon.  The loop's own sum, `Instant::now() + STATUS_REFRESH`, is
the next refresh, so an access that would leave one there is no instant for panics. -/
def implement : (c : DaemonCall) → ExceptT Halt (Prog ProcSig) c.Ret
  | .mem f => do
    let m ← mem id
    if (f m).nextRefresh < limit then mem f else throw .overflow
  | .ext c => viaE onOs (outside decode n c)

/-- `run`, for `k` passes of its loop and `n` rounds of each of its waits. -/
def process (k : Nat) : ExceptT Halt (Prog ProcSig) (Except Error Unit) :=
  (run k).run.via (implement decode n)

/-! ### What the calls of the daemon do -/

/-- The outside does not see the memory. -/
theorem exec_onOs {α : Type} {p : Prog OsSig α} {s t : Mem × ω} {a : α} :
    p.Exec ((procEnv X).through onOs) s a t ↔ p.Exec X s.2 a t.2 ∧ t.1 = s.1 := by
  have hcall (c : OsCall) (s : Mem × ω) (r : c.Ret) (t : Mem × ω) :
      (procEnv X).through (S := OsSig) onOs c s r t ↔ X c s.2 r t.2 ∧ t.1 = s.1 :=
    exec_lift_ok.trans exec_call
  induction p generalizing s with
  | pure b =>
    constructor
    · rintro ⟨rfl, rfl⟩
      exact ⟨⟨rfl, rfl⟩, rfl⟩
    · rintro ⟨⟨rfl, hw⟩, hm⟩
      exact ⟨rfl, Prod.ext hm hw⟩
  | call op k ih =>
    simp only [exec_op, hcall, ih]
    constructor
    · rintro ⟨r, u, ⟨hop, hu⟩, hk, ht⟩
      exact ⟨⟨r, u.2, hop, hk⟩, ht.trans hu⟩
    · rintro ⟨⟨r, w, hop, hk⟩, ht⟩
      exact ⟨r, (s.1, w), ⟨hop, rfl⟩, hk, ht⟩

theorem not_exec_onOs_error (c : OsCall) (s : Mem × ω) (e : Halt) (t : Mem × ω) :
    ¬ (onOs c).run.Exec (procEnv X) s (.error e) t := not_exec_lift_error

theorem exec_implement_ext {c : ExtCall} {s t : Mem × ω} {r : Except Halt c.Ret} :
    (implement decode n (.ext c)).run.Exec (procEnv X) s r t ↔
      (outside decode n c).run.Exec X s.2 r t.2 ∧ t.1 = s.1 :=
  (exec_viaE not_exec_onOs_error).trans exec_onOs

theorem wpE_implement_mem {f : Mem → Mem} {Q : Mem → Mem × ω → Prop} {R : Halt → Mem × ω → Prop}
    {s : Mem × ω} :
    wpE (procEnv X) (implement decode n (.mem f)) Q R s ↔
      ((f s.1).nextRefresh < limit → Q s.1 (f s.1, s.2)) ∧
        (¬ (f s.1).nextRefresh < limit → R .overflow s) := by
  have hmem {g : Mem → Mem} {Q : Mem → Mem × ω → Prop} {s : Mem × ω} :
      wpE (procEnv X) (mem g) Q R s ↔ Q s.1 (g s.1, s.2) := by
    refine wpE_lift.trans ⟨fun h => h s.1 _ ⟨rfl, rfl⟩, ?_⟩
    rintro h r t ⟨rfl, rfl⟩
    exact h
  unfold implement
  rw [wpE_bind, hmem, wpE_ite, hmem]
  exact Iff.rfl

theorem exec_implement_mem {f : Mem → Mem} {s : Mem × ω} (h : (f s.1).nextRefresh < limit) :
    (implement decode n (.mem f)).run.Exec (procEnv X) s (.ok s.1) (f s.1, s.2) := by
  refine exec_bind_ok (exec_lift_ok.mpr (exec_call.mpr ⟨rfl, rfl⟩)) ?_
  rw [if_pos h]
  exact exec_lift_ok.mpr (exec_call.mpr ⟨rfl, rfl⟩)

theorem exec_implement_mem_halt {f : Mem → Mem} {s : Mem × ω}
    (h : ¬ (f s.1).nextRefresh < limit) :
    (implement decode n (.mem f)).run.Exec (procEnv X) s (.error .overflow) s := by
  refine exec_bind_ok (exec_lift_ok.mpr (exec_call.mpr ⟨rfl, rfl⟩)) ?_
  rw [if_neg h]
  exact ⟨rfl, rfl⟩

/-- Something happens outside. -/
def Stirs (X : Env OsSig ω) (w w' : ω) : Prop := ∃ c r, X c w r w'

/-- **What the process returns, the daemon of the model returns**, on the traits as they
are implemented here. -/
theorem exec_of_process {k : Nat} {s t : Mem × ω} {r : Except Error Unit}
    (h : (process decode n k).run.Exec (procEnv X) s (.ok r) t) :
    (run k).run.Exec (daemonEnv (liveExt (X.through (method decode n)) (Stirs X))) s r t := by
  refine (exec_via_ok.mp h).mono fun op u a v hop => ?_
  cases op with
  | mem f =>
    have hmem := (wpE_implement_mem (X := X) decode n (f := f) (s := u)
      (Q := fun a v => a = u.1 ∧ v = (f u.1, u.2)) (R := fun _ _ => True)).mpr
        ⟨fun _ => ⟨rfl, rfl⟩, fun _ => trivial⟩
    exact wpE_iff.mp hmem (.ok a) v hop
  | ext c =>
    obtain ⟨hc, hm⟩ := (exec_implement_ext decode n).mp hop
    refine ⟨?_, hm⟩
    cases c with
    | apply cfg => exact exec_via_ok.mp hc
    | ctl c => exact hc
    | now => exact ⟨.sys .now, a, exec_call.mp (exec_lift_ok.mp hc)⟩
    | loadJson => exact ⟨.ext .loadJson, a, exec_call.mp (exec_lift_ok.mp hc)⟩
    | loadOrCreateJson => exact ⟨.ext .loadOrCreateJson, a, exec_call.mp (exec_lift_ok.mp hc)⟩
    | serve => exact ⟨.ext .serve, a, exec_call.mp (exec_lift_ok.mp hc)⟩
    | spawnWatch => exact ⟨.ext .spawnWatch, a, exec_call.mp (exec_lift_ok.mp hc)⟩
    | installSignals => exact ⟨.ext .installSignals, a, exec_call.mp (exec_lift_ok.mp hc)⟩
    | stopRequested => exact ⟨.ext .stopRequested, a, exec_call.mp (exec_lift_ok.mp hc)⟩
    | recvEvent => exact ⟨.ext .recvEvent, a, exec_call.mp (exec_lift_ok.mp hc)⟩
    | reloadPending => exact ⟨.ext .reloadPending, a, exec_call.mp (exec_lift_ok.mp hc)⟩

end Process
end Micronet
