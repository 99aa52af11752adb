import Micronet.Ipc
import Micronet.DaemonContract

/-!
# What a status request can be answered

A status request is served beside the loop, so it can meet any state that a step passes
through.  `Access` lists every access that the loop makes to its memory; whatever each of
them keeps, holds in all of these states (`throughout_accesses`).  So the answer is always
a status, its mode is the one that its two flags decide, and it gives a reason exactly if it
is unhealthy (`status_answer_coherent`).
-/
namespace Micronet
open Interaction Prog

variable {ω σ : Type} {X : Env ExtSig ω}

/-! ## Every access to the memory -/

/-- The reasons a verdict can give. -/
def Verdict.reasons : List String :=
  ["carrier but no IPv4", "gateway without dnsmasq", "client without dhclient", "empty iface"]

def Verdict.Known : Verdict → Prop
  | .healthy => True
  | .unhealthy reason => reason ∈ Verdict.reasons

theorem assess_known (mode : Mode) (carrier hasIpv4 procRunning : Bool) :
    (assess mode carrier hasIpv4 procRunning).Known := by
  cases mode <;> cases carrier <;> cases hasIpv4 <;> cases procRunning <;>
    simp [assess, Verdict.Known, Verdict.reasons]

/-- **The accesses of the loop to its memory**; the statuses it stores are in `S`. -/
inductive Access (S : Status → Prop) : (Mem → Mem) → Prop
  | look : Access S id
  | applying (b : Bool) : Access S (Mem.setApplying b)
  | config {cfg : Config} (hvalid : cfg.Valid) : Access S (Mem.setConfig cfg)
  | status {st : Status} (hst : S st) : Access S (Mem.modifyStatus fun _ => st)
  | refresh (cidr : Option Ipv4Net) (dns : Bool) :
    Access S (Mem.modifyStatus fun st => { st with cidr := cidr, dnsmasqRunning := dns })
  | link (t : Option Instant) : Access S (Mem.setDownSince t)
  | lost (now : Instant) :
    Access S fun m => if m.link.downSince.isNone then m.setDownSince (some now) else m
  | streak (n : Nat) : Access S (Mem.setStreak n)
  | count : Access S fun m => m.setStreak (saturatingSucc m.failStreak)
  | well : Access S (Mem.noteHealth true none)
  | unwell {reason : String} (hreason : reason ∈ Verdict.reasons) :
    Access S (Mem.noteHealth false (some reason))

/-- What the loop calls, and what it is answered. -/
def DaemonCall.Accesses (S : Status → Prop) : DaemonCall → Prop
  | .mem f => Access S f
  | .ext _ => True

def DaemonCall.Answered (S : Status → Prop) : (c : DaemonCall) → c.Ret → Prop
  | .ext (.apply _), r => ∀ st, r = .ok st → S st
  | _, _ => True

abbrev Accessing {α : Type} (S : Status → Prop) (p : DaemonM α) (K : α → Prop) : Prop :=
  p.Meets (DaemonCall.Accesses S) (DaemonCall.Answered S) K

section Accessing
variable {S : Status → Prop} {K : Unit → Prop}

theorem accessing_modifyMem {f : Mem → Mem} (hf : Access S f) (hK : K ()) :
    Accessing S (modifyMem f) K := meets_bind.mpr ⟨hf, fun _ _ => hK⟩

theorem accessing_readMem {K : Mem → Prop} (hK : ∀ m, K m) : Accessing S readMem K :=
  ⟨.look, fun m _ => hK m⟩

theorem accessing_well (hK : K ()) : Accessing S (setHealth true none) K :=
  accessing_modifyMem .well hK

theorem accessing_recordVerdict {v : Verdict} (hv : v.Known) (hK : K ()) :
    Accessing S (recordVerdict v) K := by
  cases v with
  | healthy =>
    refine meets_bind.mpr (accessing_modifyMem (.streak 0) ?_)
    exact accessing_well hK
  | unhealthy reason =>
    refine meets_bind.mpr (accessing_modifyMem .count ?_)
    refine meets_bind.mpr (accessing_readMem fun m => meets_ite.mpr ⟨fun _ => ?_, fun _ => hK⟩)
    exact accessing_modifyMem (.unwell hv) hK

theorem accessing_applyAndAdopt (cfg : Config) (hK : K ()) :
    Accessing S (applyAndAdopt cfg) K := by
  have hnow : Accessing S (applyNow cfg) fun r => ∀ st, r = .ok st → S st := by
    refine meets_bind.mpr (accessing_modifyMem (.applying true) ?_)
    refine meets_bind.mpr ⟨trivial, fun out hout => meets_bind.mpr ?_⟩
    exact accessing_modifyMem (.applying false) hout
  refine meets_bind.mpr (meets_mono (fun out hout => ?_) hnow)
  cases out with
  | error e => exact hK
  | ok st =>
    refine meets_bind.mpr (meets_bind.mpr (accessing_modifyMem (.link none) ?_))
    refine accessing_modifyMem (.status (hout st rfl)) ?_
    refine meets_bind.mpr (accessing_modifyMem (.streak 0) ?_)
    exact accessing_well hK

theorem accessing_load : Accessing S load.run fun r => ∀ cfg, r = .ok cfg → cfg.Valid := by
  refine meets_mono (fun r hr cfg hcfg => (hr cfg hcfg).2) (meets_validated (C := fun _ => True) ?_)
  exact ⟨trivial, fun _ _ _ _ => trivial⟩

theorem accessing_onConfigReload (hK : K ()) : Accessing S onConfigReload K := by
  refine meets_bind.mpr (meets_mono (fun r hr => ?_) accessing_load)
  cases r with
  | error e => exact hK
  | ok cfg =>
    refine meets_bind.mpr ⟨.config (hr cfg rfl), fun m _ => meets_ite.mpr ?_⟩
    exact ⟨fun _ => hK, fun _ => accessing_applyAndAdopt cfg hK⟩

theorem accessing_onReconfigure (hK : K ()) : Accessing S onReconfigure K := by
  refine meets_bind.mpr (accessing_readMem fun m => ?_)
  cases m.shared.config.read with
  | none => exact hK
  | some cfg => exact accessing_applyAndAdopt cfg hK

theorem accessing_refreshLiveStatus (iface : String) (hK : K ()) :
    Accessing S (refreshLiveStatus iface) K := by
  refine meets_bind.mpr ⟨trivial, fun c _ => meets_bind.mpr ⟨trivial, fun d _ => ?_⟩⟩
  exact accessing_modifyMem (.refresh c d) hK

theorem accessing_modeProcRunning (mode : Mode) (iface : String) {K : Bool → Prop}
    (hK : ∀ b, K b) : Accessing S (modeProcRunning mode iface) K := by
  cases mode with
  | gateway => exact ⟨trivial, fun b _ => hK b⟩
  | client => exact ⟨trivial, fun b _ => hK b⟩
  | static => exact hK true

theorem accessing_maybeSelfHeal (mode : Mode) (iface : String) (cfg : Config) (hK : K ()) :
    Accessing S (maybeSelfHeal mode iface cfg) K := by
  refine meets_bind.mpr (accessing_modeProcRunning mode iface fun running => ?_)
  cases healAction mode running with
  | none => exact hK
  | restartDnsmasq => exact ⟨trivial, fun _ _ => hK⟩
  | restartDhclient => exact ⟨trivial, fun _ _ => hK⟩

theorem accessing_tickCarrier (mode : Mode) (iface : String) (cfg : Config) (hK : K ()) :
    Accessing S (tickCarrier mode iface cfg) K := by
  refine meets_bind.mpr (accessing_modifyMem (.link none) ?_)
  refine meets_bind.mpr (accessing_refreshLiveStatus iface ?_)
  refine meets_bind.mpr (accessing_maybeSelfHeal mode iface cfg ?_)
  refine meets_bind.mpr (accessing_refreshLiveStatus iface ?_)
  refine meets_bind.mpr ⟨trivial, fun cidr _ => meets_bind.mpr ?_⟩
  refine accessing_modeProcRunning mode iface fun running => ?_
  exact accessing_recordVerdict (assess_known _ _ _ _) hK

theorem accessing_tickNoCarrier (cfg : Config) (now : Instant) (hK : K ()) :
    Accessing S (tickNoCarrier cfg now) K := by
  refine meets_bind.mpr (accessing_modifyMem (.lost now) ?_)
  refine meets_bind.mpr (accessing_modifyMem (.streak 0) ?_)
  refine meets_bind.mpr (accessing_well ?_)
  refine meets_bind.mpr (accessing_readMem fun m => meets_ite.mpr ⟨fun _ => ?_, fun _ => hK⟩)
  exact accessing_applyAndAdopt cfg hK

theorem accessing_tick (hK : K ()) : Accessing S tick K := by
  refine meets_bind.mpr (accessing_readMem fun m => meets_ite.mpr ⟨fun _ => ?_, fun _ => ?_⟩)
  · exact meets_bind.mpr (accessing_modifyMem (.streak 0) (accessing_well hK))
  refine meets_bind.mpr (accessing_readMem fun m => ?_)
  cases m.shared.status.read with
  | none => exact hK
  | some st =>
    refine meets_ite.mpr ⟨fun _ => ?_, fun _ => ?_⟩
    · exact accessing_recordVerdict (by simp [Verdict.Known, Verdict.reasons]) hK
    refine meets_bind.mpr (accessing_readMem fun m => ?_)
    cases m.shared.config.read with
    | none => exact hK
    | some cfg =>
      refine meets_bind.mpr ⟨trivial, fun up _ => meets_bind.mpr ⟨trivial, fun now _ => ?_⟩⟩
      refine meets_ite.mpr ⟨fun _ => ?_, fun _ => ?_⟩
      · exact accessing_tickCarrier st.mode st.iface cfg hK
      · exact accessing_tickNoCarrier cfg now hK

theorem accessing_step (k : StepKind) : Accessing S k.prog fun _ => True := by
  cases k with
  | reload => exact accessing_onConfigReload trivial
  | reconfigure => exact accessing_onReconfigure trivial
  | tick => exact accessing_tick trivial

/-- **What every access keeps holds in every state of a step**, over an outside whose applies
return statuses in `S`. -/
theorem throughout_accesses {I : Mem → Prop}
    (hX : ∀ cfg w st w', X (.apply cfg) w (.ok st) w' → S st)
    (hI : ∀ f m, Access S f → I m → I (f m)) (k : StepKind) {m : Mem} {w : ω} (hm : I m) :
    Throughout (daemonEnv X) k.prog (fun t => I t.1) (m, w) := by
  refine throughout_meets (J := fun t : Mem × ω => I t.1) ?_ (accessing_step (S := S) k) hm
  intro op u r v hop hu hE
  cases op with
  | mem f =>
    obtain ⟨-, rfl⟩ := hE
    exact ⟨trivial, hI f u.1 hop hu⟩
  | ext c =>
    obtain ⟨hX', hv⟩ := hE
    refine ⟨?_, hv ▸ hu⟩
    cases c with
    | apply cfg =>
      rintro st rfl
      exact hX cfg _ st _ hX'
    | _ => trivial

end Accessing

/-! ## Coherent answers -/

/-- The mode is the one its flags decide, and they do not both hold. -/
def Status.Decided (st : Status) : Prop :=
  st.mode = Mode.decide st.foreignDhcp st.gatewayReachable ∧
    ¬ (st.foreignDhcp = true ∧ st.gatewayReachable = true)

theorem withinE_applyMode_decided (cfg : Config) (iface : String) (ip : Ipv4Addr) (mode : Mode) :
    WithinE (fun _ => True) Status.Decided (applyMode cfg iface ip mode) := by
  cases mode with
  | client => simp [applyMode, applyClient, Status.Decided, Mode.decide]
  | static => simp [applyMode, applyStatic, Status.Decided, Mode.decide]
  | gateway =>
    simp only [applyMode, applyGateway, withinE_bind, withinE_ite, withinE_lift, withinE_pure,
      withinE_mk]
    simp [Status.Decided, Mode.decide]

theorem withinE_applyWith_decided (cfg : Config) :
    WithinE (fun _ => True) Status.Decided (applyWith cfg) := by
  have hany {α : Type} (x : Act α) {f : α → Act Status}
      (hf : ∀ a, WithinE (fun _ => True) Status.Decided (f a)) :
      WithinE (fun _ => True) Status.Decided (x >>= f) := by
    refine withinE_bind.mpr (within_mono (fun _ h => h) (fun r _ a _ => hf a) (within_true x.run))
  rw [applyWith_eq]
  refine hany _ fun _ => hany _ fun iface => hany _ fun offer => ?_
  cases offer with
  | true => exact withinE_applyMode_decided cfg iface cfg.staticAddr .client
  | false => exact hany _ fun _ => hany _ fun _ => withinE_applyMode_decided _ _ _ _

/-- What holds of the memory in every state a request can meet. -/
structure Mem.Coherent (m : Mem) : Prop where
  /-- The two locks that the answer reads are not poisoned. -/
  status_lock : m.shared.status.poisoned = false
  health_lock : m.shared.health.poisoned = false
  /-- The mode is the one decided by the flags. -/
  status : m.status.Decided
  /-- There is a reason exactly for bad health, and it is a known one. -/
  reasoned : m.health.healthy = true ↔ m.health.reason = none
  known : ∀ reason, m.health.reason = some reason → reason ∈ Verdict.reasons

/-- Storing another health. -/
theorem Mem.Coherent.noteHealth {m : Mem} (hm : m.Coherent) {b : Bool} {r : Option String}
    (h : b = true ∧ r = none ∨ b = false ∧ ∃ reason ∈ Verdict.reasons, r = some reason) :
    (m.noteHealth b r).Coherent := by
  have hlock : (m.noteHealth b r).shared.health.poisoned = false := by
    simp [Mem.noteHealth, Mem.modifyHealth, hm.health_lock]
  rcases h with ⟨rfl, rfl⟩ | ⟨rfl, reason, hreason, rfl⟩
  · have hok := Mem.noteHealth_ok hm.health_lock
    refine ⟨hm.status_lock, hlock, hm.status, ?_, ?_⟩
    · rw [hok]
      exact ⟨fun _ => rfl, fun _ => rfl⟩
    · rw [hok]
      rintro _ ⟨⟩
  · have hill := Mem.noteHealth_unhealthy hm.health_lock reason
    refine ⟨hm.status_lock, hlock, hm.status, ?_, ?_⟩
    · rw [hill]
      constructor <;> rintro ⟨⟩
    · rw [hill]
      rintro _ ⟨⟩
      exact hreason

/-- Every access keeps the memory coherent. -/
theorem Access.coherent {f : Mem → Mem} {m : Mem} (hf : Access Status.Decided f)
    (hm : m.Coherent) : (f m).Coherent := by
  have hstatus {g : Status → Status} (hg : (g m.status).Decided) :
      (m.modifyStatus g).Coherent := by
    refine ⟨by simp [Mem.modifyStatus, hm.status_lock], hm.health_lock, ?_, hm.reasoned, hm.known⟩
    rwa [Mem.status, Mem.modifyStatus, RwLock.modify_value hm.status_lock]
  cases hf with
  | status hst => exact hstatus hst
  | refresh cidr dns => exact hstatus hm.status
  | well => exact hm.noteHealth (Or.inl ⟨rfl, rfl⟩)
  | unwell hreason => exact hm.noteHealth (Or.inr ⟨rfl, _, hreason, rfl⟩)
  | lost now =>
    dsimp only
    split
    · exact ⟨hm.status_lock, hm.health_lock, hm.status, hm.reasoned, hm.known⟩
    · exact hm
  | _ => exact ⟨hm.status_lock, hm.health_lock, hm.status, hm.reasoned, hm.known⟩

/-- The statuses an apply of the daemon itself returns. -/
theorem liveExt_decided {W : Env CtlSig σ} {D : σ → σ → Prop} {cfg : Config} {w w' : σ}
    {st : Status} (h : liveExt W D (.apply cfg) w (.ok st) w') : st.Decided :=
  (withinE_applyWith_decided cfg).value h

theorem boot_decided {out : Except Error Status} (h : ∀ st, out = .ok st → st.Decided) :
    (boot out).Decided := by
  cases out with
  | ok st => exact h st rfl
  | error e => exact ⟨rfl, fun h => nomatch h.1⟩

/-! ## Reasons that belong to the status -/

/-- The reason is one that a daemon with this status can have. -/
def Status.Explains (st : Status) (reason : String) : Prop :=
  (reason = "gateway without dnsmasq" → st.mode = .gateway) ∧
    (reason = "client without dhclient" → st.mode = .client) ∧
    (reason = "empty iface" → st.iface = "")

/-- Between two steps the stored reason belongs to the stored status. -/
def Mem.Explained (m : Mem) : Prop :=
  ∀ reason, m.health.reason = some reason → m.status.Explains reason

theorem assess_explains (st : Status) {hasIpv4 procRunning : Bool} {reason : String}
    (h : assess st.mode true hasIpv4 procRunning = .unhealthy reason) : st.Explains reason := by
  unfold Status.Explains
  revert h
  cases st.mode <;> cases hasIpv4 <;> cases procRunning <;> simp [assess] <;> rintro rfl <;> simp

/-- A verdict whose reason belongs to the status. -/
theorem Mem.Explained.record {m : Mem} (hm : m.Settled) (he : m.Explained) {v : Verdict}
    (hv : ∀ reason, v = .unhealthy reason → m.status.Explains reason) :
    (m.record v).Explained := by
  intro reason hreason
  rw [Mem.record_status]
  cases v with
  | healthy =>
    rw [show (m.record .healthy).health = .ok from Mem.noteHealth_ok (hm.setStreak 0).health_lock]
      at hreason
    cases hreason
  | unhealthy r =>
    unfold Mem.record at hreason
    dsimp only at hreason
    split at hreason
    · rw [Mem.noteHealth_unhealthy (hm.setStreak _).health_lock] at hreason
      obtain rfl : r = reason := Option.some.inj hreason
      exact hv r rfl
    · exact he reason hreason

theorem Mem.Explained.applied {m : Mem} (hm : m.Settled) (he : m.Explained)
    (out : Except Error Status) : (m.applied out).Explained := by
  cases out with
  | error e => exact he
  | ok st =>
    have hok : (m.applied (.ok st)).health = .ok := Mem.noteHealth_ok hm.health_lock
    intro reason hreason
    rw [hok] at hreason
    cases hreason

theorem Stepped.explained {k : StepKind} {m m' : Mem} {w w' : ω} {l : Log ExtSig ω}
    (h : Stepped X m w k l m' w') (hm : m.Settled) (he : m.Explained) : m'.Explained := by
  have hlose (now : Instant) : (m.lose now).Explained := by
    intro reason hreason
    rw [hm.lose_health] at hreason
    cases hreason
  cases h with
  | loaded hvalid _ _ => exact Mem.Explained.applied (hm.setConfig hvalid) he _
  | rejected _ _ => exact he
  | reconfigured _ => exact he.applied hm _
  | unnamed hiface =>
    refine he.record hm fun reason hreason => ?_
    cases hreason
    exact ⟨nofun, nofun, fun _ => hiface⟩
  | @linked _ _ _ _ _ seg c d _ _ _ _ _ hm' =>
    have hsettled := (hm.setDownSince none).refresh c d
    have hstatus : ((m.setDownSince none).refresh c d).status =
        { m.status with cidr := c, dnsmasqRunning := d } :=
      Mem.refresh_status (hm.setDownSince none).status_lock c d
    have hkept : ((m.setDownSince none).refresh c d).Explained := by
      intro reason hreason
      rw [hstatus]
      exact he reason hreason
    rw [hm']
    refine hkept.record hsettled fun reason hreason => ?_
    rw [hstatus]
    exact assess_explains m.status hreason
  | unlinked _ _ _ _ => exact hlose _
  | reselected _ _ _ _ _ => exact (hlose _).applied (hm.lose _) _

theorem Run.explained {w₀ : ω} {h : List (Record ω)} {s : Mem × ω} (hrun : Run X w₀ h s) :
    s.1.Explained := by
  refine hrun.invariant (I := fun m _ => m.Explained) ?_ ?_ ?_ ?_
  · rintro cfg w₁ out w₂ _ _ _ reason ⟨⟩
  · exact fun _ _ _ h _ => h
  · exact fun _ _ _ h => h
  · exact fun _ _ _ _ _ _ hm h hstep => hstep.explained hm h

section Live
variable {W : Env CtlSig σ} {D : σ → σ → Prop} {w₀ : σ} {h : List (Record σ)} {s : Mem × σ}

theorem throughout_coherent (k : StepKind) {m : Mem} {w : σ} (hm : m.Coherent) :
    Throughout (daemonEnv (liveExt W D)) k.prog (fun t => t.1.Coherent) (m, w) :=
  throughout_accesses (fun _ _ _ _ => liveExt_decided) (fun _ _ hf => hf.coherent) k hm

theorem Run.coherent (hrun : Run (liveExt W D) w₀ h s) : s.1.Coherent := by
  induction hrun with
  | start hstart =>
    refine wpE_iff.mp (wp_start (Q := fun _ s => s.1.Coherent) ?_) _ _ hstart
    intro cfg w₁ _ _ out w₂ happly w₃ _ t
    have hst : (boot out).Decided := by
      refine boot_decided fun st hout => ?_
      subst hout
      exact liveExt_decided happly
    exact ⟨rfl, rfl, hst, ⟨fun _ => rfl, fun _ => rfl⟩, nofun⟩
  | pause _ _ _ ih => exact ih
  | timer _ _ ih => exact ⟨ih.status_lock, ih.health_lock, ih.status, ih.reasoned, ih.known⟩
  | step k _ hexec ih =>
    exact wp_iff.mp (wp_of_throughout (throughout_coherent k ih)) () _ (exec_daemon_forget hexec)

/-- **A status request is always answered with one coherent story.**  In every run, in every
state that a step passes through, the answer is a status: its mode is the one decided by its two
flags, which never both hold; it gives a reason exactly if it is unhealthy, one of the four
that are known.  Between two steps that reason belongs to the mode and the interface it is
given with. -/
theorem status_answer_coherent (hrun : Run (liveExt W D) w₀ h s) (k : StepKind) {t : Mem × σ}
    (hvisit : k.prog.Visits (daemonEnv (liveExt W D)) s t) :
    ∃ (st : Status) (health : Health),
      statusReply t.1.shared = .status st.mode st.iface (st.cidr.map Ipv4Net.display)
        st.foreignDhcp st.gatewayReachable st.dnsmasqRunning health.healthy health.reason ∧
      st.mode = Mode.decide st.foreignDhcp st.gatewayReachable ∧
      ¬ (st.foreignDhcp = true ∧ st.gatewayReachable = true) ∧
      (health.healthy = true ↔ health.reason = none) ∧
      ∀ reason, health.reason = some reason →
        reason ∈ Verdict.reasons ∧ (t = s → st.Explains reason) := by
  obtain ⟨m, w⟩ := s
  have ht := throughout_coherent k hrun.coherent t hvisit
  refine ⟨t.1.status, t.1.health, ?_, ht.status.1, ht.status.2, ht.reasoned, fun r hr => ?_⟩
  · simp only [statusReply, RwLock.read, ht.status_lock, ht.health_lock]
    rfl
  · refine ⟨ht.known r hr, ?_⟩
    rintro rfl
    exact hrun.explained r hr

/-- After three ticks without an interface the answer gives the reason that belongs to it. -/
theorem noEthernet_answer :
    ∃ (st : Status) (health : Health),
      statusReply (final noEthernet noEthernetStart [.tick, .tick, .tick]).1.shared =
        .status st.mode st.iface (st.cidr.map Ipv4Net.display) st.foreignDhcp st.gatewayReachable
          st.dnsmasqRunning health.healthy health.reason ∧
      health.reason = some "empty iface" ∧ st.Explains "empty iface" := by
  have hrun := run_noEthernet [.tick, .tick, .tick]
  obtain ⟨st, health, hreply, -, -, -, hreason⟩ :=
    status_answer_coherent hrun .tick (Visits.start _ _)
  have hstored : statusReply (final noEthernet noEthernetStart [.tick, .tick, .tick]).1.shared =
      .status .gateway "" none false false false false (some "empty iface") := by decide +kernel
  have hempty : health.reason = some "empty iface" := by
    rw [hreply] at hstored
    injection hstored
  exact ⟨st, health, hreply, hempty, (hreason _ hempty).2 rfl⟩

end Live
end Micronet
