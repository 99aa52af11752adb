import Mathlib.Logic.Relation
import Micronet.DaemonStep

/-!
# Runs of the daemon

A run is the start and then any sequence of reloads, reconfigures and ticks, each
recorded with the memory around it and the outside's answers (`Record`).  Between
them the loop makes its own calls, and time may pass.  What the literal loop
executes is a run (`run_of_exec`), so what holds of every run holds of the loop.

Under a log each step is described by the calls it made: `Stepped` has a case for each way
that a step can go, and `step_cases` says that there is no other.
-/
namespace Micronet
open Interaction Prog

variable {ω : Type} {X : Env ExtSig ω}

/-! ## What the answers of the outside show -/

def Event.cidr : Event ExtSig ω → Option (Option Ipv4Net)
  | ⟨.ctl (.net (.ifaceIpv4Cidr _)), _, c⟩ => some c
  | _ => none

/-- Whether the mode's own process runs. -/
def Event.proc : Mode → Event ExtSig ω → Option Bool
  | .gateway, ⟨.ctl (.gw .dhcpRunning), _, running⟩ => some running
  | .client, ⟨.ctl (.net (.dhclientRunning _)), _, running⟩ => some running
  | _, _ => none

@[simp] theorem lastOf_proc_static (l : Log ExtSig ω) : lastOf (Event.proc .static) l = none :=
  lastOf_eq_none.mpr fun _ _ => rfl

/-- The verdict that the last answers of a tick with carrier call for. -/
def assessed (mode : Mode) (l : Log ExtSig ω) : Verdict :=
  assess mode true ((lastOf Event.cidr l).getD none).isSome
    ((lastOf (Event.proc mode) l).getD true)

/-- Every call of the log is one to `LiveNet` or `LiveGateway`, and none a probe. -/
def CtlOnly (l : Log ExtSig ω) : Prop :=
  ∀ e ∈ l, ∃ c, e.op = .ctl c ∧ ∀ i d, c ≠ .gw (.probeForeignDhcp i d)

theorem CtlOnly.append {l l' : Log ExtSig ω} (h : CtlOnly l) (h' : CtlOnly l') :
    CtlOnly (l ++ l') := by
  intro e he
  rcases List.mem_append.mp he with he | he
  · exact h e he
  · exact h' e he

@[simp high + 1] theorem wp_ext_logged {α : Type} {Q : α → Mem × ω × Log ExtSig ω → Prop}
    {s : Mem × ω × Log ExtSig ω} {c : ExtCall} {k : c.Ret → Prog DaemonSig α} :
    wp (daemonEnv X.logged) (.call (.ext c) k) Q s ↔ ∀ r w, X c s.2.1 r w →
      wp (daemonEnv X.logged) (k r) Q (s.1, w, s.2.2 ++ [⟨c, s.2.1, r⟩]) := by
  refine wp_ext.trans ?_
  constructor
  · exact fun h r w hX => h r (w, _) ⟨hX, rfl⟩
  · intro h r w hw
    obtain ⟨w, l⟩ := w
    obtain ⟨hX, rfl⟩ := hw
    exact h r w hX

/-- What a step does is what it does beside a log. -/
theorem exec_daemon_forget {α : Type} {p : DaemonM α} {m m' : Mem} {w w' : ω}
    {l l' : Log ExtSig ω} {a : α} (h : p.Exec (daemonEnv X.logged) (m, w, l) a (m', w', l')) :
    p.Exec (daemonEnv X) (m, w) a (m', w') := by
  induction p generalizing m w l with
  | pure b => exact ⟨h.1, Prod.ext (Prod.mk.inj h.2).1 (Prod.mk.inj (Prod.mk.inj h.2).2).1⟩
  | call op k ih =>
    obtain ⟨r, ⟨m₁, w₁, l₁⟩, hop, hk⟩ := h
    cases op with
    | mem f =>
      obtain ⟨hr, hs⟩ := hop
      obtain ⟨rfl, rfl, rfl⟩ : m₁ = f m ∧ w₁ = w ∧ l₁ = l := by simpa using hs
      exact ⟨r, (f m, w₁), ⟨hr, rfl⟩, ih r hk⟩
    | ext c =>
      obtain ⟨⟨hX, _⟩, hm⟩ := hop
      obtain rfl : m₁ = m := hm
      exact ⟨r, (m₁, w₁), ⟨hX, rfl⟩, ih r hk⟩

/-- Every execution can be written down. -/
theorem exec_daemon_withLog {α : Type} {p : DaemonM α} {m m' : Mem} {w w' : ω} {a : α}
    (h : p.Exec (daemonEnv X) (m, w) a (m', w')) (l : Log ExtSig ω) :
    ∃ seg, p.Exec (daemonEnv X.logged) (m, w, l) a (m', w', l ++ seg) := by
  induction p generalizing m w l with
  | pure b =>
    obtain ⟨rfl, hs⟩ := h
    obtain ⟨rfl, rfl⟩ := Prod.mk.inj hs
    exact ⟨[], rfl, by rw [List.append_nil]⟩
  | call op k ih =>
    obtain ⟨r, ⟨m₁, w₁⟩, hop, hk⟩ := h
    cases op with
    | mem f =>
      obtain ⟨hr, hs⟩ := hop
      obtain ⟨rfl, rfl⟩ : m₁ = f m ∧ w₁ = w := by simpa using hs
      obtain ⟨seg, hseg⟩ := ih r hk l
      exact ⟨seg, r, (f m, w₁, l), ⟨hr, rfl⟩, hseg⟩
    | ext c =>
      obtain ⟨hX, hm⟩ := hop
      obtain rfl : m₁ = m := hm
      obtain ⟨seg, hseg⟩ := ih r hk (l ++ [⟨c, w, r⟩])
      refine ⟨⟨c, w, r⟩ :: seg, r, (m₁, w₁, l ++ [⟨c, w, r⟩]), ⟨⟨hX, rfl⟩, rfl⟩, ?_⟩
      rwa [List.append_assoc] at hseg

/-! ## What each step can do -/

section Steps
variable {m : Mem} {w : ω} {l : Log ExtSig ω}

/-- Calls that leave the memory alone and only go to the interface and the server. -/
theorem wp_heal_logged {α : Type} {mode : Mode} {iface : String} {cfg : Config}
    {p : DaemonM α} {K : α → Prop} (hp : p.Within (HealCall mode iface cfg) K) :
    wp (daemonEnv X.logged) p
      (fun a t => K a ∧ t.1 = m ∧ ∃ seg, t.2.2 = l ++ seg ∧ CtlOnly seg) (m, w, l) := by
  refine wp_within (I := fun t : Mem × ω × Log ExtSig ω =>
    t.1 = m ∧ ∃ seg, t.2.2 = l ++ seg ∧ CtlOnly seg) ?_ hp
    ⟨rfl, [], (List.append_nil l).symm, fun _ h => nomatch h⟩
  intro op s r t hop ⟨hm, seg, hl, hseg⟩ hE
  cases op with
  | mem f => exact hop.elim
  | ext c =>
    obtain ⟨⟨_, hlog⟩, hmem⟩ := hE
    refine ⟨hmem.trans hm, seg ++ [⟨c, s.2.1, r⟩], by rw [hlog, hl, List.append_assoc], ?_⟩
    refine hseg.append fun e he => ?_
    rw [List.mem_singleton.mp he]
    cases c with
    | ctl c =>
      refine ⟨c, rfl, ?_⟩
      rintro i d rfl
      exact hop.elim
    | _ => exact hop.elim

theorem wp_modeProcRunning_logged {mode : Mode} {iface : String} :
    wp (daemonEnv X.logged) (modeProcRunning mode iface) (fun b t => t.1 = m ∧
      ∃ seg, t.2.2 = l ++ seg ∧ CtlOnly seg ∧ lastOf Event.cidr seg = none ∧
        ∀ l', (lastOf (Event.proc mode) (l' ++ seg)).getD true = b) (m, w, l) := by
  cases mode <;>
    simp [-Bool.forall_bool, modeProcRunning, CtlOnly, Event.cidr, Event.proc]

/-- **A tick with carrier** asks the interface and the server only; its verdict is
that of the last answers. -/
theorem wp_tickCarrier_logged {mode : Mode} {iface : String} {cfg : Config} :
    wp (daemonEnv X.logged) (tickCarrier mode iface cfg) (fun _ t =>
      ∃ seg c d, t.2.2 = l ++ seg ∧ CtlOnly seg ∧
        t.1 = ((m.setDownSince none).refresh c d).record (assessed mode seg)) (m, w, l) := by
  unfold tickCarrier modifyMem
  simp only [wp_bind, wp_mem, wp_ret, wp_pure, wp_refreshLiveStatus]
  rintro c₁ ⟨w₁, l₁⟩ ⟨_, hl₁⟩ d₁ ⟨w₂, l₂⟩ ⟨_, hl₂⟩
  refine wp_mono (wp_heal_logged (within_maybeSelfHeal mode iface cfg)) ?_
  rintro _ ⟨m₃, w₃, l₃⟩ ⟨_, hm₃, seg₃, hl₃, hseg₃⟩
  rintro c₄ ⟨w₄, l₄⟩ ⟨_, hl₄⟩ d₅ ⟨w₅, l₅⟩ ⟨_, hl₅⟩
  refine wp_ext_logged.mpr fun c₆ w₆ _ => wp_ret.mpr ?_
  refine wp_mono wp_modeProcRunning_logged ?_
  rintro b ⟨m₇, w₇, l₇⟩ ⟨hm₇, seg₇, hl₇, hseg₇, hcidr, hb⟩
  refine wp_recordVerdict.mpr ?_
  dsimp only at *
  subst hl₁ hl₂ hl₃ hl₄ hl₅ hl₇ hm₃ hm₇
  refine ⟨[⟨.ctl (.net (.ifaceIpv4Cidr iface)), w, c₁⟩,
    ⟨.ctl (.gw .dhcpRunning), w₁, d₁⟩] ++ seg₃ ++
    [⟨.ctl (.net (.ifaceIpv4Cidr iface)), w₃, c₄⟩, ⟨.ctl (.gw .dhcpRunning), w₄, d₅⟩,
      ⟨.ctl (.net (.ifaceIpv4Cidr iface)), w₅, c₆⟩] ++ seg₇, c₄, d₅, ?_, ?_, ?_⟩
  · simp
  · refine ((CtlOnly.append ?_ hseg₃).append ?_).append hseg₇ <;> simp [CtlOnly]
  · unfold assessed
    rw [hb, lastOf_append, hcidr, Mem.refresh_refresh]
    simp [Event.cidr]

end Steps

/-- A step of the loop. -/
inductive StepKind
  | reload
  | reconfigure
  | tick
deriving DecidableEq

def StepKind.prog : StepKind → DaemonM Unit
  | .reload => onConfigReload
  | .reconfigure => onReconfigure
  | .tick => Micronet.tick

/-- The tick finds no carrier for long enough to select again. -/
def Mem.overdue (m : Mem) (now : Instant) : Bool :=
  shouldReselect false (m.lose now).link.downSince now (.fromSecs m.config.linkRetrySecs)

/-- **Everything a step can do** from a settled memory, with the calls it makes. -/
inductive Stepped (X : Env ExtSig ω) (m : Mem) (w : ω) :
    StepKind → Log ExtSig ω → Mem → ω → Prop
  | loaded {cfg : Config} {out : Except Error Status} {w₁ w' : ω} (hvalid : cfg.Valid)
      (hload : X .loadJson w (.ok cfg) w₁) (happly : X (.apply cfg) w₁ out w') :
      Stepped X m w .reload [⟨.loadJson, w, .ok cfg⟩, ⟨.apply cfg, w₁, out⟩]
        ((m.setConfig cfg).applied out) w'
  | rejected {r : Except Error Config} {w' : ω} (hinvalid : ∀ cfg, r = .ok cfg → ¬ cfg.Valid)
      (hload : X .loadJson w r w') : Stepped X m w .reload [⟨.loadJson, w, r⟩] m w'
  | reconfigured {out : Except Error Status} {w' : ω} (happly : X (.apply m.config) w out w') :
      Stepped X m w .reconfigure [⟨.apply m.config, w, out⟩] (m.applied out) w'
  | unnamed (hiface : m.status.iface = "") :
      Stepped X m w .tick [] (m.record (.unhealthy "empty iface")) w
  | linked {now : Instant} {w₁ w₂ w' : ω} {m' : Mem} {seg : Log ExtSig ω}
      {c : Option Ipv4Net} {d : Bool} (hiface : m.status.iface ≠ "")
      (hup : X (.ctl (.net (.carrierUp m.status.iface))) w true w₁) (hnow : X .now w₁ now w₂)
      (hexec : (tickCarrier m.status.mode m.status.iface m.config).Exec (daemonEnv X)
        (m, w₂) () (m', w'))
      (hseg : CtlOnly seg)
      (hm' : m' = ((m.setDownSince none).refresh c d).record (assessed m.status.mode seg)) :
      Stepped X m w .tick
        (⟨.ctl (.net (.carrierUp m.status.iface)), w, true⟩ :: ⟨.now, w₁, now⟩ :: seg) m' w'
  | unlinked {now : Instant} {w₁ w' : ω} (hiface : m.status.iface ≠ "")
      (hdown : X (.ctl (.net (.carrierUp m.status.iface))) w false w₁) (hnow : X .now w₁ now w')
      (hearly : m.overdue now = false) :
      Stepped X m w .tick
        [⟨.ctl (.net (.carrierUp m.status.iface)), w, false⟩, ⟨.now, w₁, now⟩] (m.lose now) w'
  | reselected {now : Instant} {out : Except Error Status} {w₁ w₂ w' : ω}
      (hiface : m.status.iface ≠ "")
      (hdown : X (.ctl (.net (.carrierUp m.status.iface))) w false w₁) (hnow : X .now w₁ now w₂)
      (hdue : m.overdue now = true) (happly : X (.apply m.config) w₂ out w') :
      Stepped X m w .tick
        [⟨.ctl (.net (.carrierUp m.status.iface)), w, false⟩, ⟨.now, w₁, now⟩,
          ⟨.apply m.config, w₂, out⟩] ((m.lose now).applied out) w'

section Steps
variable {m m' : Mem} {w w' : ω} {l : Log ExtSig ω}

theorem wp_onConfigReload_logged (hm : m.Settled) :
    wp (daemonEnv X.logged) onConfigReload (fun _ t => Stepped X m w .reload t.2.2 t.1 t.2.1)
      (m, w, []) := by
  refine (wp_onConfigReload hm).mpr ?_
  rintro r ⟨w₁, l₁⟩ ⟨hload, hl₁⟩
  obtain rfl : l₁ = [⟨.loadJson, w, r⟩] := hl₁
  constructor
  · rintro cfg rfl hvalid out ⟨w₂, l₂⟩ ⟨happly, hl₂⟩
    obtain rfl : l₂ = [⟨.loadJson, w, .ok cfg⟩, ⟨.apply cfg, w₁, out⟩] := hl₂
    exact .loaded hvalid hload happly
  · exact fun hinvalid => .rejected hinvalid hload

theorem wp_onReconfigure_logged (hm : m.Settled) :
    wp (daemonEnv X.logged) onReconfigure
      (fun _ t => Stepped X m w .reconfigure t.2.2 t.1 t.2.1) (m, w, []) := by
  refine (wp_onReconfigure hm).mpr ?_
  rintro out ⟨w₁, l₁⟩ ⟨happly, hl₁⟩
  obtain rfl : l₁ = [⟨.apply m.config, w, out⟩] := hl₁
  exact .reconfigured happly

theorem wp_tick_logged (hm : m.Settled) :
    wp (daemonEnv X.logged) tick (fun _ t => Stepped X m w .tick t.2.2 t.1 t.2.1)
      (m, w, []) := by
  refine (wp_tick hm).mpr ⟨.unnamed, fun hiface => wp_tickLink.mpr ?_⟩
  rintro up ⟨w₁, l₁⟩ ⟨hup, hl₁⟩ now ⟨w₂, l₂⟩ ⟨hnow, hl₂⟩
  obtain rfl : l₁ = [⟨.ctl (.net (.carrierUp m.status.iface)), w, up⟩] := hl₁
  obtain rfl : l₂ = [⟨.ctl (.net (.carrierUp m.status.iface)), w, up⟩, ⟨.now, w₁, now⟩] := hl₂
  constructor
  · rintro rfl
    refine wp_iff.mpr fun _ t ht => ?_
    obtain ⟨t, w₃, l₃⟩ := t
    obtain ⟨seg, c, d, hl₃, hseg, hm₃⟩ := wp_iff.mp wp_tickCarrier_logged _ _ ht
    obtain rfl : l₃ = _ ++ seg := hl₃
    exact .linked hiface hup hnow (exec_daemon_forget ht) hseg hm₃
  · intro hdown
    obtain rfl : up = false := by simpa using hdown
    refine wp_tickNoCarrier.mpr ⟨?_, ?_⟩
    · rintro hdue out ⟨w₃, l₃⟩ ⟨happly, hl₃⟩
      obtain rfl : l₃ = _ ++ [_] := hl₃
      exact .reselected hiface hup hnow hdue happly
    · exact fun hearly => .unlinked hiface hup hnow (Bool.eq_false_iff.mpr hearly)

theorem step_cases {k : StepKind} (hm : m.Settled)
    (h : k.prog.Exec (daemonEnv X.logged) (m, w, []) () (m', w', l)) :
    Stepped X m w k l m' w' := by
  cases k with
  | reload => exact wp_iff.mp (wp_onConfigReload_logged hm) _ _ h
  | reconfigure => exact wp_iff.mp (wp_onReconfigure_logged hm) _ _ h
  | tick => exact wp_iff.mp (wp_tick_logged hm) _ _ h

end Steps
/-- A step keeps the memory settled. -/
theorem Stepped.settled {k : StepKind} {m m' : Mem} {w w' : ω} {l : Log ExtSig ω}
    (h : Stepped X m w k l m' w') (hm : m.Settled) : m'.Settled := by
  cases h with
  | loaded hvalid _ _ => exact (hm.setConfig hvalid).applied _
  | rejected => exact hm
  | reconfigured => exact hm.applied _
  | unnamed => exact hm.record _
  | linked _ _ _ _ _ hm' => exact hm' ▸ ((hm.setDownSince none).refresh _ _).record _
  | unlinked => exact hm.lose _
  | reselected => exact (hm.lose _).applied _

/-! ## Runs -/

/-- The calls that the loop itself makes: the clock, and the channels and threads of
the process. -/
def ExtCall.Pause : ExtCall → Prop
  | .apply _ | .ctl _ | .loadJson | .loadOrCreateJson => False
  | _ => True

/-- One step of a run. -/
structure Record (ω : Type) where
  kind : StepKind
  /-- The state the step was made in. -/
  before : Mem × ω
  /-- What it asked of the outside, with the answers. -/
  events : Log ExtSig ω
  /-- The state it left. -/
  after : Mem × ω

/-- The runs of the daemon from an outside in `w₀`, with their steps, oldest first. -/
inductive Run (X : Env ExtSig ω) (w₀ : ω) : List (Record ω) → Mem × ω → Prop
  | start {m₀ : Mem} {s : Mem × ω} (h : start.run.Exec (daemonEnv X) (m₀, w₀) (.ok ()) s) :
      Run X w₀ [] s
  | pause {h : List (Record ω)} {m : Mem} {w w' : ω} {c : ExtCall} {r : c.Ret}
      (hrun : Run X w₀ h (m, w)) (hc : c.Pause) (hX : X c w r w') : Run X w₀ h (m, w')
  | timer {h : List (Record ω)} {m : Mem} {w : ω} (hrun : Run X w₀ h (m, w)) (t : Instant) :
      Run X w₀ h ({ m with nextRefresh := t }, w)
  | step {h : List (Record ω)} {m m' : Mem} {w w' : ω} {l : Log ExtSig ω} (k : StepKind)
      (hrun : Run X w₀ h (m, w))
      (hexec : k.prog.Exec (daemonEnv X.logged) (m, w, []) () (m', w', l)) :
      Run X w₀ (h ++ [⟨k, (m, w), l, (m', w')⟩]) (m', w')

/-- The status the daemon starts with. -/
def boot : Except Error Status → Status
  | .ok s => s
  | .error _ => .empty

/-- One pause of the loop, as the outside sees it. -/
def Paused (X : Env ExtSig ω) (w w' : ω) : Prop := ∃ (c : ExtCall) (r : c.Ret), c.Pause ∧ X c w r w'

/-- A configuration that was read and passes its check. -/
def checked (json : Except Error Config) : Except Error Config := do
  let cfg ← json
  cfg.validate
  return cfg

theorem checked_eq_ok {json : Except Error Config} {cfg : Config} (h : checked json = .ok cfg) :
    json = .ok cfg ∧ cfg.Valid := by
  obtain e | c := json
  · cases h
  · change c.validate.map (fun _ => c) = .ok cfg at h
    cases hv : c.validate with
    | error e =>
      rw [hv] at h
      cases h
    | ok u =>
      rw [hv] at h
      obtain rfl : c = cfg := Except.ok.inj h
      exact ⟨rfl, hv⟩

theorem wpE_loadOrCreate {Q : Config → Mem × ω → Prop} {R : Error → Mem × ω → Prop}
    {s : Mem × ω} :
    wpE (daemonEnv X) loadOrCreate Q R s ↔
      ∀ json w, X .loadOrCreateJson s.2 json w → post Q R (checked json) (s.1, w) := by
  simp only [loadOrCreate, wpE_bind, wpE_mk, wp_ext, wp_ret]
  refine forall_congr' fun json => forall_congr' fun w => imp_congr_right fun _ => ?_
  cases json with
  | error e => exact Iff.rfl
  | ok cfg =>
    show post _ R cfg.validate _ ↔ post Q R (cfg.validate.map fun _ => cfg) _
    cases cfg.validate <;> exact Iff.rfl

theorem wp_initialStatus {cfg : Config} {Q : Status → Mem × ω → Prop} {s : Mem × ω} :
    wp (daemonEnv X) (initialStatus cfg) Q s ↔
      ∀ out w, X (.apply cfg) s.2 out w → Q (boot out) (s.1, w) := by
  simp only [initialStatus, wp_bind, wp_ext, wp_ret]
  refine forall_congr' fun out => forall_congr' fun w => imp_congr_right fun _ => ?_
  cases out <;> exact Iff.rfl

/-- **The start** loads a valid configuration and applies it once. -/
theorem wp_start {Q : Unit → Mem × ω → Prop} {m₀ : Mem} {w₀ : ω}
    (h : ∀ cfg w₁, X .loadOrCreateJson w₀ (.ok cfg) w₁ → cfg.Valid →
      ∀ out w₂, X (.apply cfg) w₁ out w₂ → ∀ w₃, Relation.ReflTransGen (Paused X) w₂ w₃ →
        ∀ t, Q () ({ Mem.new cfg (boot out) with nextRefresh := t }, w₃)) :
    wpE (daemonEnv X) start Q (fun _ _ => True) (m₀, w₀) := by
  unfold start
  rw [wpE_bind, wpE_loadOrCreate]
  intro json w₁ hload
  cases hjson : checked json with
  | error e => trivial
  | ok cfg =>
  obtain ⟨rfl, hvalid⟩ := checked_eq_ok hjson
  rw [post_ok, wpE_bind, wpE_lift, wp_initialStatus]
  intro out w₂ happly
  simp only [modifyMem, wpE_bind, wpE_mk, wpE_lift, wp_bind, wp_mem, wp_ext, wp_ret, wp_pure,
    forall_except, post_ok, post_error, implies_true, and_true]
  intro _ w₃ hserve _ w₄ hwatch _ w₅ hsignals now w₆ hnow
  refine h cfg w₁ hload hvalid out w₂ happly w₆ ?_ _
  exact .tail (.tail (.tail (.single ⟨.serve, .ok (), trivial, hserve⟩)
    ⟨.spawnWatch, .ok (), trivial, hwatch⟩) ⟨.installSignals, .ok (), trivial, hsignals⟩)
    ⟨.now, now, trivial, hnow⟩

theorem Mem.new_settled {cfg : Config} (h : cfg.Valid) (st : Status) : (Mem.new cfg st).Settled :=
  ⟨rfl, rfl, rfl, rfl, h⟩

theorem Mem.Settled.timer {m : Mem} (h : m.Settled) (t : Instant) :
    ({ m with nextRefresh := t } : Mem).Settled :=
  ⟨h.idle, h.config_lock, h.status_lock, h.health_lock, h.valid⟩

section Run
variable {w₀ : ω} {h : List (Record ω)} {s : Mem × ω}

/-- **Between two steps the memory is settled**, in every run. -/
theorem Run.settled (hrun : Run X w₀ h s) : s.1.Settled := by
  induction hrun with
  | start hstart =>
    refine wpE_iff.mp (wp_start (Q := fun _ s => s.1.Settled) ?_) _ _ hstart
    intro cfg w₁ _ hvalid out w₂ _ w₃ _ t
    exact (Mem.new_settled hvalid _).timer t
  | pause _ _ _ ih => exact ih
  | timer _ t ih => exact ih.timer t
  | step k _ hexec ih => exact (step_cases ih hexec).settled ih

/-- **Induction over a run**: the start, a pause, the timer, and a step. -/
theorem Run.rule {I : List (Record ω) → Mem → ω → Prop}
    (hboot : ∀ cfg w₁ out w₂, X .loadOrCreateJson w₀ (.ok cfg) w₁ → cfg.Valid →
      X (.apply cfg) w₁ out w₂ → I [] (.new cfg (boot out)) w₂)
    (hpause : ∀ h m w w', I h m w → Paused X w w' → I h m w')
    (htimer : ∀ h m w t, I h m w → I h { m with nextRefresh := t } w)
    (hstep : ∀ h m w k l m' w', m.Settled → I h m w → Stepped X m w k l m' w' →
      I (h ++ [⟨k, (m, w), l, (m', w')⟩]) m' w')
    (hrun : Run X w₀ h s) : I h s.1 s.2 := by
  induction hrun with
  | start hstart =>
    refine wpE_iff.mp (wp_start (Q := fun _ s => I [] s.1 s.2) ?_) _ _ hstart
    intro cfg w₁ hload hvalid out w₂ happly w₃ hpaused t
    refine htimer _ _ _ t ?_
    induction hpaused with
    | refl => exact hboot cfg w₁ out w₂ hload hvalid happly
    | tail _ hw ih => exact hpause _ _ _ _ ih hw
  | pause _ hc hX ih => exact hpause _ _ _ _ ih ⟨_, _, hc, hX⟩
  | timer _ t ih => exact htimer _ _ _ t ih
  | step k hrun hexec ih =>
    exact hstep _ _ _ k _ _ _ hrun.settled ih (step_cases hrun.settled hexec)

/-- An invariant of the memory and the outside, whatever the history. -/
theorem Run.invariant {I : Mem → ω → Prop}
    (hboot : ∀ cfg w₁ out w₂, X .loadOrCreateJson w₀ (.ok cfg) w₁ → cfg.Valid →
      X (.apply cfg) w₁ out w₂ → I (.new cfg (boot out)) w₂)
    (hpause : ∀ m w w', I m w → Paused X w w' → I m w')
    (htimer : ∀ m w t, I m w → I { m with nextRefresh := t } w)
    (hstep : ∀ m w k l m' w', m.Settled → I m w → Stepped X m w k l m' w' → I m' w')
    (hrun : Run X w₀ h s) : I s.1 s.2 :=
  hrun.rule (I := fun _ => I) hboot (fun _ => hpause) (fun _ => htimer) fun _ => hstep

end Run

/-! ## The loop executes runs -/

section Loop
variable {w₀ : ω} {s : Mem × ω}

/-- Some run is in `s`. -/
def Running (X : Env ExtSig ω) (w₀ : ω) (s : Mem × ω) : Prop := ∃ h, Run X w₀ h s

theorem Running.pause {α : Type} {c : ExtCall} {k : c.Ret → DaemonM α} {Q : α → Mem × ω → Prop}
    (hs : Running X w₀ s) (hc : c.Pause)
    (hk : ∀ r t, Running X w₀ t → wp (daemonEnv X) (k r) Q t) :
    wp (daemonEnv X) (.call (.ext c) k) Q s := by
  obtain ⟨h, hrun⟩ := hs
  exact wp_ext.mpr fun r w hX => hk r (s.1, w) ⟨h, hrun.pause hc hX⟩

theorem Running.step (hs : Running X w₀ s) (k : StepKind) :
    wp (daemonEnv X) k.prog (fun _ t => Running X w₀ t) s := by
  obtain ⟨h, hrun⟩ := hs
  refine wp_iff.mpr fun _ t ht => ?_
  obtain ⟨l, hl⟩ := exec_daemon_withLog ht []
  exact ⟨_, hrun.step k hl⟩

theorem wp_tickIfDue (hs : Running X w₀ s) :
    wp (daemonEnv X) tickIfDue (fun _ t => Running X w₀ t) s := by
  unfold tickIfDue readMem modifyMem
  refine wp_bind.mpr (hs.pause trivial fun now t ht => wp_ret.mpr ?_)
  rw [wp_bind, wp_mem, wp_ret, wp_ite]
  refine ⟨fun _ => wp_bind.mpr (wp_mono (ht.step .tick) fun _ u hu => ?_), fun _ => ht⟩
  refine wp_bind.mpr (hu.pause trivial fun now v hv => wp_ret.mpr ?_)
  obtain ⟨h, hrun⟩ := hv
  exact wp_bind.mpr (wp_mem.mpr ⟨h, hrun.timer _⟩)

theorem Running.when (hs : Running X w₀ s) (b : Prop) [Decidable b] (k : StepKind) :
    wp (daemonEnv X) (if b then k.prog else Pure.pure ()) (fun _ t => Running X w₀ t) s :=
  wp_ite.mpr ⟨fun _ => hs.step k, fun _ => hs⟩

/-- One pass, once the event is there. -/
theorem wp_pass (event : Recv) (hs : Running X w₀ s) :
    wp (daemonEnv X) (do
      let reload ← ext .reloadPending
      (if reload then onConfigReload else Pure.pure ())
      (if event = .reconfigure then onReconfigure else Pure.pure ())
      tickIfDue
      return true) (fun _ t => Running X w₀ t) s := by
  refine wp_bind.mpr (hs.pause trivial fun reload s hs => wp_ret.mpr ?_)
  refine wp_bind.mpr (wp_mono (hs.when reload .reload) fun _ s hs => ?_)
  refine wp_bind.mpr (wp_mono (hs.when (event = .reconfigure) .reconfigure) fun _ s hs => ?_)
  exact wp_bind.mpr (wp_mono (wp_tickIfDue hs) fun _ s hs => hs)

theorem wp_loopBody (hs : Running X w₀ s) :
    wp (daemonEnv X) loopBody (fun _ t => Running X w₀ t) s := by
  unfold loopBody
  refine wp_bind.mpr (hs.pause trivial fun stop s hs => wp_ret.mpr ?_)
  rw [wp_ite]
  refine ⟨fun _ => hs, fun _ => wp_bind.mpr (hs.pause trivial fun event s hs => wp_ret.mpr ?_)⟩
  cases event with
  | disconnected => exact hs
  | reconfigure => exact wp_pass .reconfigure hs
  | timeout => exact wp_pass .timeout hs

theorem wp_loop (n : Nat) (hs : Running X w₀ s) :
    wp (daemonEnv X) (loop n) (fun _ t => Running X w₀ t) s := by
  induction n generalizing s with
  | zero => exact hs
  | succ n ih =>
    refine wp_bind.mpr (wp_mono (wp_loopBody hs) fun b t ht => ?_)
    cases b with
    | false => exact ht
    | true => exact ih ht

/-- **What the daemon executes is a run.** -/
theorem run_of_exec {n : Nat} {m₀ : Mem} {t : Mem × ω}
    (h : (run n).run.Exec (daemonEnv X) (m₀, w₀) (.ok ()) t) : Running X w₀ t := by
  rcases execE_bind.mp h with ⟨_, s, hstart, hloop⟩ | ⟨e, _, he⟩
  · have hrunning : wpE (daemonEnv X) (liftM (loop n)) (fun _ t => Running X w₀ t)
        (fun (_ : Error) _ => True) s := wpE_lift.mpr (wp_loop n ⟨[], .start hstart⟩)
    exact wpE_iff.mp hrunning _ t hloop
  · cases he

end Loop
end Micronet
