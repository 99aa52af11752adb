import Micronet.LiveDaemon

/-!
# The passes of the loop

A pass takes at most one event from the channel of the control socket, asks the channel
of the file watcher once, and then reloads, reconfigures and ticks, in this order.
`Phase` says how far it has come.  `Pass` is what has to be shown of a family of
invariants, one for each phase: that each call and each step of a pass leads from one
phase to the next.  `Pass.wp_loopBody` and `wp_loop_rule` carry it over a pass and over
the loop.
-/
namespace Micronet
open Interaction Prog

variable {ω : Type} {X : Env ExtSig ω} {w₀ : ω}

/-- How far a pass has come. -/
inductive Phase
  | start
  /-- No stop is requested. -/
  | going
  | received (event : Recv)
  /-- Both channels have answered. -/
  | asked (event : Recv) (reload : Bool)
  /-- Whatever was to be reloaded is. -/
  | reloaded (event : Recv)
  /-- Only the tick is left, or nothing. -/
  | served
  /-- The loop is left. -/
  | stopped
deriving DecidableEq

/-- An invariant of the history, the memory and the outside for each phase. -/
abbrev Phased (ω : Type) : Type := Phase → List (Record ω) → Mem → ω → Prop

/-- **One pass** leads the invariants from phase to phase. -/
structure Pass (X : Env ExtSig ω) (I : Phased ω) : Prop where
  /-- The pass begins with a look at the stop flag and waits for an event. -/
  stopRequested {h : List (Record ω)} {m : Mem} {w w' : ω} (stop : Bool) :
    I .start h m w → X .stopRequested w stop w' →
      I (if stop then .stopped else .going) h m w'
  recvEvent {h : List (Record ω)} {m : Mem} {w w' : ω} (event : Recv) :
    I .going h m w → X .recvEvent w event w' → I (.received event) h m w'
  disconnected {h : List (Record ω)} {m : Mem} {w : ω} :
    I (.received .disconnected) h m w → I .stopped h m w
  /-- It asks the watcher whether the file changed, and reloads it if so. -/
  reloadPending {h : List (Record ω)} {m : Mem} {w w' : ω} (event : Recv) (reload : Bool) :
    I (.received event) h m w → X .reloadPending w reload w' → I (.asked event reload) h m w'
  unchanged {h : List (Record ω)} {m : Mem} {w : ω} (event : Recv) :
    I (.asked event false) h m w → I (.reloaded event) h m w
  reload {h : List (Record ω)} {m m' : Mem} {w w' : ω} {l : Log ExtSig ω} (event : Recv) :
    m.Settled → I (.asked event true) h m w → Stepped X m w .reload l m' w' →
      I (.reloaded event) (h ++ [⟨.reload, (m, w), l, (m', w')⟩]) m' w'
  /-- A request is served with an apply; without one nothing is. -/
  timeout {h : List (Record ω)} {m : Mem} {w : ω} :
    I (.reloaded .timeout) h m w → I .served h m w
  reconfigure {h : List (Record ω)} {m m' : Mem} {w w' : ω} {l : Log ExtSig ω} :
    m.Settled → I (.reloaded .reconfigure) h m w → Stepped X m w .reconfigure l m' w' →
      I .served (h ++ [⟨.reconfigure, (m, w), l, (m', w')⟩]) m' w'
  /-- It ends with a look at the clock, and a tick when it is time. -/
  now {h : List (Record ω)} {m : Mem} {w w' : ω} (t : Instant) :
    I .served h m w → X .now w t w' → I .served h m w'
  timer {h : List (Record ω)} {m : Mem} {w : ω} (t : Instant) :
    I .served h m w → I .served h { m with nextRefresh := t } w
  tick {h : List (Record ω)} {m m' : Mem} {w w' : ω} {l : Log ExtSig ω} :
    m.Settled → I .served h m w → Stepped X m w .tick l m' w' →
      I .served (h ++ [⟨.tick, (m, w), l, (m', w')⟩]) m' w'

/-- Some run is in `s`, in the phase `p` of a pass. -/
def At (X : Env ExtSig ω) (w₀ : ω) (I : Phased ω) (p : Phase) (s : Mem × ω) : Prop :=
  ∃ h, Run X w₀ h s ∧ I p h s.1 s.2

section Pass
variable {I : Phased ω} {p q : Phase} {s : Mem × ω}

theorem At.pause {α : Type} {c : ExtCall} {k : c.Ret → DaemonM α} {Q : α → Mem × ω → Prop}
    (next : c.Ret → Phase) (hs : At X w₀ I p s) (hc : c.Pause)
    (hI : ∀ h m w r w', I p h m w → X c w r w' → I (next r) h m w')
    (hk : ∀ r t, At X w₀ I (next r) t → wp (daemonEnv X) (k r) Q t) :
    wp (daemonEnv X) (.call (.ext c) k) Q s := by
  obtain ⟨h, hrun, hp⟩ := hs
  exact wp_ext.mpr fun r w hX => hk r (s.1, w) ⟨h, hrun.pause hc hX, hI h s.1 s.2 r w hp hX⟩

theorem At.step {k : StepKind} (hs : At X w₀ I p s)
    (hI : ∀ {h m m' w w' l}, m.Settled → I p h m w → Stepped X m w k l m' w' →
      I q (h ++ [⟨k, (m, w), l, (m', w')⟩]) m' w') :
    wp (daemonEnv X) k.prog (fun _ t => At X w₀ I q t) s := by
  obtain ⟨h, hrun, hp⟩ := hs
  refine wp_iff.mpr fun _ t ht => ?_
  obtain ⟨l, hl⟩ := exec_daemon_withLog ht []
  exact ⟨_, hrun.step k hl, hI hrun.settled hp (step_cases hrun.settled hl)⟩

theorem At.weaken (hs : At X w₀ I p s) (hI : ∀ {h m w}, I p h m w → I q h m w) :
    At X w₀ I q s := by
  obtain ⟨h, hrun, hp⟩ := hs
  exact ⟨h, hrun, hI hp⟩

variable (hpass : Pass X I)
include hpass

theorem Pass.wp_tickIfDue (hs : At X w₀ I .served s) :
    wp (daemonEnv X) tickIfDue (fun _ t => At X w₀ I .served t) s := by
  unfold tickIfDue readMem modifyMem
  refine wp_bind.mpr (hs.pause (fun _ => .served) trivial
    (fun _ _ _ now _ => hpass.now now) fun now t ht => wp_ret.mpr ?_)
  rw [wp_bind, wp_mem, wp_ret, wp_ite]
  refine ⟨fun _ => wp_bind.mpr (wp_mono (ht.step (k := .tick) hpass.tick) fun _ u hu => ?_),
    fun _ => ht⟩
  refine wp_bind.mpr (hu.pause (fun _ => .served) trivial
    (fun _ _ _ now _ => hpass.now now) fun now v hv => wp_ret.mpr ?_)
  obtain ⟨h, hrun, hv⟩ := hv
  exact wp_bind.mpr (wp_mem.mpr ⟨h, hrun.timer _, hpass.timer _ hv⟩)

/-- One pass, once its event is there. -/
theorem Pass.wp_event (event : Recv) (hopen : event ≠ .disconnected)
    (hs : At X w₀ I (.received event) s) :
    wp (daemonEnv X) (do
      let reload ← ext .reloadPending
      (if reload then onConfigReload else Pure.pure ())
      (if event = .reconfigure then onReconfigure else Pure.pure ())
      tickIfDue
      return true) (fun _ t => At X w₀ I .served t) s := by
  refine wp_bind.mpr (hs.pause (fun reload => .asked event reload) trivial
    (fun _ _ _ reload _ => hpass.reloadPending event reload) fun reload s hs => wp_ret.mpr ?_)
  have hreload : wp (daemonEnv X) (if reload then onConfigReload else Pure.pure ())
      (fun _ t => At X w₀ I (.reloaded event) t) s := by
    rw [wp_ite]
    constructor
    · rintro rfl
      exact hs.step (k := .reload) (hpass.reload event)
    · intro hno
      obtain rfl : reload = false := by simpa using hno
      exact hs.weaken (hpass.unchanged event)
  refine wp_bind.mpr (wp_mono hreload fun _ s hs => ?_)
  have hserve : wp (daemonEnv X) (if event = .reconfigure then onReconfigure else Pure.pure ())
      (fun _ t => At X w₀ I .served t) s := by
    rw [wp_ite]
    constructor
    · rintro rfl
      exact hs.step (k := .reconfigure) hpass.reconfigure
    · intro hno
      cases event with
      | reconfigure => exact absurd rfl hno
      | disconnected => exact absurd rfl hopen
      | timeout => exact hs.weaken hpass.timeout
  refine wp_bind.mpr (wp_mono hserve fun _ s hs => ?_)
  exact wp_bind.mpr (wp_mono (hpass.wp_tickIfDue hs) fun _ s hs => hs)

/-- **The rule of a pass.** -/
theorem Pass.wp_loopBody (hs : At X w₀ I .start s) :
    wp (daemonEnv X) loopBody
      (fun again t => At X w₀ I (if again then .served else .stopped) t) s := by
  unfold loopBody
  refine wp_bind.mpr (hs.pause (fun stop => if stop then .stopped else .going) trivial
    (fun _ _ _ stop _ => hpass.stopRequested stop) fun stop s hs => wp_ret.mpr ?_)
  rw [wp_ite]
  constructor
  · rintro rfl
    exact hs
  · intro hno
    obtain rfl : stop = false := by simpa using hno
    refine wp_bind.mpr (hs.pause (fun event => .received event) trivial
      (fun _ _ _ event _ => hpass.recvEvent event) fun event s hs => wp_ret.mpr ?_)
    have hagain (event : Recv) (hopen : event ≠ .disconnected)
        (hs : At X w₀ I (.received event) s) :
        wp (daemonEnv X) (do
          let reload ← ext .reloadPending
          (if reload then onConfigReload else Pure.pure ())
          (if event = .reconfigure then onReconfigure else Pure.pure ())
          tickIfDue
          return true)
          (fun again t => At X w₀ I (if again then .served else .stopped) t) s := by
      have hwithin := hpass.wp_event event hopen hs
      simp only [wp_bind, wp_pure] at hwithin ⊢
      exact hwithin
    cases event with
    | disconnected => exact hs.weaken hpass.disconnected
    | reconfigure => exact hagain .reconfigure (by simp) hs
    | timeout => exact hagain .timeout (by simp) hs

end Pass

/-- **The rule of the loop**, for invariants that may speak of the number of the pass. -/
theorem wp_loop_rule {J : Nat → Phased ω} (hpass : ∀ i, Pass X (J i))
    (hnext : ∀ {i h m w}, J i .served h m w → J (i + 1) .start h m w) {i : Nat} {s : Mem × ω}
    (n : Nat) (hs : At X w₀ (J i) .start s) :
    wp (daemonEnv X) (loop n) (fun _ t => At X w₀ (J (i + n)) .start t ∨
      ∃ j, j < i + n ∧ At X w₀ (J j) .stopped t) s := by
  induction n generalizing i s with
  | zero => exact Or.inl hs
  | succ n ih =>
    refine wp_bind.mpr (wp_mono ((hpass i).wp_loopBody hs) fun again t ht => ?_)
    cases again with
    | false => exact Or.inr ⟨i, by omega, ht⟩
    | true =>
      obtain ⟨h, hrun, hserved⟩ := ht
      have hloop := ih (i := i + 1) ⟨h, hrun, hnext hserved⟩
      rw [show i + (n + 1) = i + 1 + n by omega]
      exact hloop

end Micronet
