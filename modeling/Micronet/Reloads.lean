import Micronet.Channels

/-!
# The configuration that was announced

A signal of the watcher says only that the file may have changed, and a later one may be
merged with it.  What the loop keeps is that, once the signals are taken, it has read the
version that was signalled last.  A request is looked for before the signals are, and
served after the reload, so what was announced before a request is taken has been read
when the request is served.  Both hold of the versions since the watcher was started: the
first version is read before that.
-/
namespace Micronet
open Interaction Prog Relation

variable {ω : Type}

namespace Channels

/-- The version that the loop has read, or whose announcement it has missed. -/
def known (c : Channels) : Nat := max c.read c.watchedFrom

/-- Nothing is signalled, read or taken before it is there. -/
structure Sane (c : Channels) : Prop where
  /-- What was signalled, read, watched from or taken as of is a version that was written. -/
  signalled : c.signalled ≤ c.version
  read : c.read ≤ c.version
  watchedFrom : c.watchedFrom ≤ c.version
  asOf : c.asOf ≤ c.version
  /-- What was read last is what the file holds, if it was not written since. -/
  got : c.read = c.version → c.got = c.json

/-- The loop has neither read nor taken anything from `a` to `b`. -/
structure Untouched (a b : Channels) : Prop where
  /-- What the loop has read, and what was announced at its last request, are as they were. -/
  read : b.read = a.read
  got : b.got = a.got
  watchedFrom : b.watchedFrom = a.watchedFrom
  asOf : b.asOf = a.asOf
  /-- The file may have been written, and signals sent. -/
  version : a.version ≤ b.version
  json : b.version = a.version → b.json = a.json
  /-- A signal is not lost: if none is left, there was none, and none was sent. -/
  pending : b.pending = 0 → a.pending = 0 ∧ b.signalled = a.signalled
  signalled : a.signalled ≤ a.version → b.signalled ≤ b.version

section Untouched
variable {a b c : Channels}

theorem Untouched.refl (a : Channels) : Untouched a a :=
  ⟨rfl, rfl, rfl, rfl, Nat.le_refl _, fun _ => rfl, fun h => ⟨h, rfl⟩, id⟩

theorem Untouched.trans (h : Untouched a b) (h' : Untouched b c) : Untouched a c := by
  have hab := h.version
  have hbc := h'.version
  refine ⟨h'.read.trans h.read, h'.got.trans h.got, h'.watchedFrom.trans h.watchedFrom,
    h'.asOf.trans h.asOf, hab.trans hbc, fun hac => ?_, fun hc => ?_,
    fun ha => h'.signalled (h.signalled ha)⟩
  · rw [h'.json (by omega), h.json (by omega)]
  · obtain ⟨hb, hsignalled⟩ := h'.pending hc
    obtain ⟨ha, hsignalled'⟩ := h.pending hb
    exact ⟨ha, hsignalled.trans hsignalled'⟩

theorem Happens.untouched (h : Happens a b) : Untouched a b := by
  cases h with
  | request => exact ⟨rfl, rfl, rfl, rfl, Nat.le_refl _, fun _ => rfl, fun h => ⟨h, rfl⟩, id⟩
  | write json =>
    refine ⟨rfl, rfl, rfl, rfl, Nat.le_succ _, fun h => ?_, fun h => ⟨h, rfl⟩, Nat.le_succ_of_le⟩
    exact absurd h (Nat.succ_ne_self _)
  | signal =>
    refine ⟨rfl, rfl, rfl, rfl, Nat.le_refl _, fun _ => rfl, fun h => ?_, fun _ => Nat.le_refl _⟩
    exact absurd h (Nat.succ_ne_zero _)

theorem Later.untouched (h : a.Later b) : Untouched a b := by
  induction h with
  | refl => exact .refl _
  | tail _ hstep ih => exact ih.trans hstep.untouched

theorem Untouched.known (h : Untouched a b) : b.known = a.known := by
  rw [Channels.known, h.read, h.watchedFrom]
  rfl

theorem Sane.untouched (hs : a.Sane) (h : Untouched a b) : b.Sane := by
  have hversion := h.version
  have hread := hs.read
  have hwatched := hs.watchedFrom
  have hasOf := hs.asOf
  refine ⟨h.signalled hs.signalled, ?_, ?_, ?_, fun hb => ?_⟩
  · rw [h.read]
    omega
  · rw [h.watchedFrom]
    omega
  · rw [h.asOf]
    omega
  · rw [h.read] at hb
    have hsame : b.version = a.version := by omega
    rw [h.got, h.json hsame]
    exact hs.got (by omega)

end Untouched

/-- The calls by which the loop reads or takes something. -/
def Touches : ExtCall → Prop
  | .recvEvent | .reloadPending | .loadJson | .loadOrCreateJson | .spawnWatch => True
  | _ => False

end Channels

theorem channelled_untouched {X : Env ExtSig ω} {c : ExtCall} {r : c.Ret} {w w' : ω × Channels}
    (hc : ¬ Channels.Touches c) (h : channelled X c w r w') : w.2.Untouched w'.2 := by
  obtain ⟨-, b, hlater, hanswer⟩ := h
  have hsame : w'.2 = b := by
    cases c with
    | recvEvent | reloadPending | loadJson | loadOrCreateJson | spawnWatch =>
      exact absurd trivial hc
    | _ => exact hanswer
  rw [hsame]
  exact hlater.untouched

/-- Only a reload changes the configuration. -/
theorem Stepped.config_eq {X : Env ExtSig ω} {k : StepKind} {m m' : Mem} {w w' : ω}
    {l : Log ExtSig ω} (hk : k ≠ .reload) (h : Stepped X m w k l m' w') :
    m'.config = m.config := by
  cases h with
  | loaded _ _ _ => exact absurd rfl hk
  | rejected _ _ => rfl
  | reconfigured _ => exact Mem.applied_config _
  | unnamed => exact Mem.record_config _
  | linked _ _ _ _ _ hm' => rw [hm', Mem.record_config, Mem.refresh_config, Mem.setDownSince_config]
  | unlinked _ _ _ _ => exact Mem.lose_config _
  | reselected _ _ _ _ _ => rw [Mem.applied_config, Mem.lose_config]

/-! ## Phase by phase -/

/-- A signal was taken, and the file is about to be read. -/
def Phase.Due : Phase → Prop
  | .asked _ true => True
  | _ => False

/-- The signals are not looked at yet, or not any more. -/
def Phase.Unasked : Phase → Prop
  | .received _ | .stopped => True
  | _ => False

/-- What had been announced when the request of this step was taken was read before it was
served, and is what was applied. -/
def Informed (r : Record (ω × Channels)) : Prop :=
  r.before.2.2.asOf ≤ r.before.2.2.known ∧
    ∀ cfg, r.before.2.2.got = .ok cfg → cfg.Valid → r.before.1.config = cfg

/-- How far the loop knows what was announced. -/
structure Fresh (p : Phase) (h : List (Record (ω × Channels))) (m : Mem) (w : ω × Channels) :
    Prop where
  sane : w.2.Sane
  /-- The configuration that was read last is in force, if it is valid. -/
  current : ∀ cfg, w.2.got = .ok cfg → cfg.Valid → m.config = cfg
  /-- With no reload due and no signal left, the loop knows what was signalled. -/
  signal : ¬ p.Due → w.2.pending = 0 → w.2.signalled ≤ w.2.known
  /-- It knows what had been signalled when it took its last request. -/
  request : ¬ p.Due → (p.Unasked → w.2.pending = 0) → w.2.asOf ≤ w.2.known
  /-- And so it was at each request that was served. -/
  served : ∀ r ∈ h, r.kind = .reconfigure → Informed r

section Fresh
variable {X : Env ExtSig ω} {p q : Phase} {h : List (Record (ω × Channels))} {m m' : Mem}
  {w w' : ω × Channels} {l : Log ExtSig (ω × Channels)}

theorem Fresh.untouched (hf : Fresh p h m w) (hw : w.2.Untouched w'.2)
    (hm : m'.config = m.config) (hp : ¬ p.Due) (hunasked : p.Unasked → q.Unasked) :
    Fresh q h m' w' := by
  refine ⟨hf.sane.untouched hw, fun cfg hgot hcfg => ?_, fun _ hnone => ?_, fun _ hasked => ?_,
    hf.served⟩
  · rw [hm]
    exact hf.current cfg (hw.got ▸ hgot) hcfg
  · obtain ⟨hnone, hsignalled⟩ := hw.pending hnone
    rw [hw.known, hsignalled]
    exact hf.signal hp hnone
  · rw [hw.known, hw.asOf]
    exact hf.request hp fun h => (hw.pending (hasked (hunasked h))).1

/-- A step that reads nothing. -/
theorem Fresh.step {k : StepKind} (hf : Fresh p h m w) (hk : k ≠ .reload)
    (hstep : Stepped (channelled X) m w k l m' w') (hp : ¬ p.Due) (hunasked : p.Unasked → q.Unasked)
    (hserved : k = .reconfigure → ¬ p.Unasked) :
    Fresh q (h ++ [⟨k, (m, w), l, (m', w')⟩]) m' w' := by
  have hw : w.2.Untouched w'.2 := by
    refine hstep.keeps (I := fun u => w.2.Untouched u.2) ?_ (.refl _)
    intro c s r t hc hs hX
    refine hs.trans (channelled_untouched ?_ hX)
    cases k with
    | reload => exact absurd rfl hk
    | reconfigure | tick => cases c <;> first | exact id | exact hc.elim
  have hq := hf.untouched (q := q) hw (hstep.config_eq hk) hp hunasked
  refine ⟨hq.sane, hq.current, hq.signal, hq.request, fun r hr hkind => ?_⟩
  rcases List.mem_append.mp hr with hr | hr
  · exact hf.served r hr hkind
  · obtain rfl := List.mem_singleton.mp hr
    exact ⟨hf.request hp fun h => absurd h (hserved hkind), hf.current⟩

/-- A reload has read what is there. -/
theorem Fresh.reload (event : Recv) (hm : m.Settled) (hf : Fresh (.asked event true) h m w)
    (hstep : Stepped (channelled X) m w .reload l m' w') :
    Fresh (.reloaded event) (h ++ [⟨.reload, (m, w), l, (m', w')⟩]) m' w' := by
  have hread {r : Except Error Config} {u : ω × Channels} (hX : channelled X .loadJson w r u) :
      u.2.Sane ∧ u.2.read = u.2.version ∧ u.2.got = r := by
    obtain ⟨-, b, hlater, rfl, hu⟩ := hX
    have hb := hf.sane.untouched hlater.untouched
    rw [hu]
    exact ⟨⟨hb.signalled, Nat.le_refl _, hb.watchedFrom, hb.asOf, fun _ => rfl⟩, rfl, rfl⟩
  have hfresh {u : ω × Channels} (hu : u.2.Sane) (hnew : u.2.read = u.2.version)
      (hcurrent : ∀ cfg, u.2.got = .ok cfg → cfg.Valid → m'.config = cfg) :
      Fresh (.reloaded event) (h ++ [⟨.reload, (m, w), l, (m', w')⟩]) m' u := by
    have hknown : u.2.version ≤ u.2.known := by
      rw [Channels.known, hnew]
      exact le_max_left _ _
    refine ⟨hu, hcurrent, fun _ _ => hu.signalled.trans hknown, fun _ _ => hu.asOf.trans hknown,
      fun r hr hkind => ?_⟩
    rcases List.mem_append.mp hr with hr | hr
    · exact hf.served r hr hkind
    · obtain rfl := List.mem_singleton.mp hr
      cases hkind
  cases hstep with
  | @loaded cfg out u _ hvalid hload happly =>
    obtain ⟨hsane, hnew, hgot⟩ := hread hload
    have hconfig : ((m.setConfig cfg).applied out).config = cfg := by
      rw [Mem.applied_config, Mem.setConfig_config hm.config_lock]
    refine (hfresh hsane hnew fun cfg' hgot' _ => ?_).untouched
      (channelled_untouched (c := .apply cfg) id happly) rfl id id
    rw [hconfig]
    exact Except.ok.inj (hgot.symm.trans hgot')
  | rejected hinvalid hload =>
    obtain ⟨hsane, hnew, hgot⟩ := hread hload
    exact hfresh hsane hnew fun cfg hgot' hcfg => absurd hcfg (hinvalid cfg (hgot.symm.trans hgot'))

/-- What is taken is at most what was announced, and nothing is taken unheard. -/
theorem Fresh.receive (event : Recv) (hf : Fresh .going h m w)
    (hX : channelled X .recvEvent w event w') : Fresh (.received event) h m w' := by
  obtain ⟨-, b, hlater, hanswer⟩ := hX
  have hb : Fresh .going h m (w.1, b) := hf.untouched hlater.untouched rfl id id
  by_cases hevent : event = .reconfigure
  · subst hevent
    obtain ⟨-, hw'⟩ := hanswer
    have hsane : w'.2.Sane := by
      rw [hw']
      exact ⟨hb.sane.signalled, hb.sane.read, hb.sane.watchedFrom, hb.sane.signalled, hb.sane.got⟩
    refine ⟨hsane, ?_, ?_, ?_, hf.served⟩
    · rw [hw']
      exact hb.current
    · rw [hw']
      exact hb.signal
    · rw [hw']
      exact fun hdue hasked => hb.signal hdue (hasked trivial)
  · have hw' : w'.2 = b := by
      cases event with
      | reconfigure => exact absurd rfl hevent
      | timeout => exact hanswer.2
      | disconnected => exact hanswer.2
    have huntouched : b.Untouched w'.2 := hw' ▸ .refl b
    exact hb.untouched huntouched rfl id fun h => h.elim

theorem Fresh.ask (event : Recv) (reload : Bool) (hf : Fresh (.received event) h m w)
    (hX : channelled X .reloadPending w reload w') : Fresh (.asked event reload) h m w' := by
  obtain ⟨-, b, hlater, hanswer⟩ := hX
  have hb : Fresh (.received event) h m (w.1, b) := hf.untouched hlater.untouched rfl id id
  cases reload with
  | true =>
    obtain ⟨-, hw'⟩ := hanswer
    have hsane : w'.2.Sane := by
      rw [hw']
      exact ⟨hb.sane.signalled, hb.sane.read, hb.sane.watchedFrom, hb.sane.asOf, hb.sane.got⟩
    refine ⟨hsane, ?_, fun hdue => absurd trivial hdue, fun hdue => absurd trivial hdue, hf.served⟩
    rw [hw']
    exact hb.current
  | false =>
    obtain ⟨hnone, hw'⟩ := hanswer
    refine ⟨hw' ▸ hb.sane, ?_, ?_, ?_, hf.served⟩
    · rw [hw']
      exact hb.current
    · rw [hw']
      exact hb.signal
    · rw [hw']
      exact fun hdue _ => hb.request hdue fun _ => hnone

theorem fresh_pass : Pass (channelled X) Fresh where
  stopRequested stop hf hX := by
    have hw := channelled_untouched (c := .stopRequested) id hX
    cases stop with
    | false => exact hf.untouched hw rfl id id
    | true => exact hf.untouched hw rfl id fun h => h.elim
  recvEvent event hf hX := hf.receive event hX
  disconnected hf := hf.untouched (.refl _) rfl id id
  reloadPending event reload hf hX := hf.ask event reload hX
  unchanged event hf := hf.untouched (.refl _) rfl id id
  reload event hm hf hstep := hf.reload event hm hstep
  timeout hf := hf.untouched (.refl _) rfl id id
  reconfigure _ hf hstep := hf.step nofun hstep id id fun _ => id
  now _ hf hX := hf.untouched (channelled_untouched (c := .now) id hX) rfl id id
  timer _ hf := hf.untouched (.refl _) rfl id id
  tick _ hf hstep := hf.step nofun hstep id id fun _ => id

end Fresh

/-! ## From the start -/

/-- The calls of the start once the first apply is over. -/
def ExtCall.SetsUp : ExtCall → Prop
  | .serve | .spawnWatch | .installSignals | .now => True
  | _ => False

theorem wp_start_calls {X : Env ExtSig ω} {I : Mem → ω → Prop} {m₀ : Mem} {w₀ : ω}
    (hboot : ∀ cfg w₁ out w₂, X .loadOrCreateJson w₀ (.ok cfg) w₁ → cfg.Valid →
      X (.apply cfg) w₁ out w₂ → I (.new cfg (boot out)) w₂)
    (hcall : ∀ {c : ExtCall} {r m w w'}, c.SetsUp → I m w → X c w r w' → I m w')
    (htimer : ∀ m w t, I m w → I { m with nextRefresh := t } w) :
    wpE (daemonEnv X) start (fun _ s => I s.1 s.2) (fun _ _ => True) (m₀, w₀) := by
  unfold start
  rw [wpE_bind, wpE_loadOrCreate]
  intro json w₁ hload
  cases hjson : checked json with
  | error e => trivial
  | ok cfg =>
  obtain ⟨rfl, hvalid⟩ := checked_eq_ok hjson
  rw [post_ok, wpE_bind, wpE_lift, wp_initialStatus]
  intro out w₂ happly
  simp only [modifyMem, wpE_bind, wpE_mk, wpE_lift, wp_bind, wp_mem, wp_ext, wp_ret, wp_pure,
    forall_except, post_ok, post_error, implies_true, and_true]
  intro _ w₃ hserve _ w₄ hwatch _ w₅ hsignals now w₆ hnow
  have h₃ := hcall (c := .serve) trivial (hboot cfg w₁ out w₂ hload hvalid happly) hserve
  have h₄ := hcall (c := .spawnWatch) trivial h₃ hwatch
  have h₅ := hcall (c := .installSignals) trivial h₄ hsignals
  exact htimer _ _ _ (hcall (c := .now) trivial h₅ hnow)

/-- What was read before the watcher is started is all that is known, and more is announced
later. -/
theorem wp_start_fresh {X : Env ExtSig ω} {m₀ : Mem} {w₀ : ω × Channels} (hw₀ : w₀.2.Sane) :
    wpE (daemonEnv (channelled X)) start (fun _ s => Fresh .start [] s.1 s.2) (fun _ _ => True)
      (m₀, w₀) := by
  refine wp_start_calls ?_ ?_ ?_
  · intro cfg w₁ out w₂ hload hvalid happly
    obtain ⟨-, b, hlater, hjson, hw₁⟩ := hload
    have hb := hw₀.untouched hlater.untouched
    have hknown : w₁.2.version ≤ w₁.2.known := by
      rw [hw₁]
      exact le_max_left _ _
    have hsane : w₁.2.Sane := by
      rw [hw₁]
      exact ⟨hb.signalled, Nat.le_refl _, hb.watchedFrom, hb.asOf, fun _ => rfl⟩
    have hfresh : Fresh .start [] (.new cfg (boot out)) w₁ := by
      refine ⟨hsane, fun cfg' hgot _ => ?_, fun _ _ => hsane.signalled.trans hknown,
        fun _ _ => hsane.asOf.trans hknown, fun r hr => absurd hr List.not_mem_nil⟩
      have hgot' : w₁.2.got = .ok cfg := by
        rw [hw₁]
        exact hjson cfg rfl
      exact Except.ok.inj (hgot'.symm.trans hgot)
    exact hfresh.untouched (channelled_untouched (c := .apply cfg) id happly) rfl id id
  · intro c r m w w' hc hf hX
    by_cases htouches : Channels.Touches c
    · -- only the watcher's start touches the channels here
      cases c with
      | spawnWatch =>
        obtain ⟨-, b, hlater, hw'⟩ := hX
        have hb : Fresh .start [] m (w.1, b) := hf.untouched hlater.untouched rfl id id
        have hknown : w'.2.version ≤ w'.2.known := by
          rw [hw']
          exact le_max_right _ _
        have hsane : w'.2.Sane := by
          rw [hw']
          exact ⟨hb.sane.signalled, hb.sane.read, Nat.le_refl _, hb.sane.asOf, hb.sane.got⟩
        refine ⟨hsane, ?_, fun _ _ => hsane.signalled.trans hknown,
          fun _ _ => hsane.asOf.trans hknown, hf.served⟩
        rw [hw']
        exact hb.current
      | recvEvent | reloadPending | loadJson | loadOrCreateJson => exact hc.elim
      | _ => exact htouches.elim
    · exact hf.untouched (channelled_untouched htouches hX) rfl id id
  · exact fun m w t hf => hf.untouched (.refl _) rfl id id

/-- **No announced configuration is missed.**  However the clients, the file's writers and the
watcher act while the daemon starts and makes `n` passes: when no signal is left and what was
signalled last is what the file holds, the loop has read it, and it is in force if it is valid.
And every request was served with a configuration at least as new as the one that had been
announced when it was taken.  Both up to the versions written before the watcher was started,
which are never announced. -/
theorem announced_config_in_force (X : Env ExtSig ω) {m₀ : Mem} {w₀ : ω × Channels}
    (hw₀ : w₀.2.Sane) {n : Nat} {t : Mem × ω × Channels}
    (hexec : (run n).run.Exec (daemonEnv (channelled X)) (m₀, w₀) (.ok ()) t) :
    (t.2.2.pending = 0 → t.2.2.signalled = t.2.2.version → t.2.2.watchedFrom ≤ t.2.2.read →
      t.2.2.read = t.2.2.version ∧
        ∀ cfg, t.2.2.json = .ok cfg → cfg.Valid → t.1.config = cfg) ∧
    ∃ h, Run (channelled X) w₀ h t ∧ ∀ r ∈ h, r.kind = .reconfigure →
      r.before.2.2.watchedFrom ≤ r.before.2.2.read → r.before.2.2.asOf ≤ r.before.2.2.read ∧
        ∀ cfg, r.before.2.2.got = .ok cfg → cfg.Valid → r.before.1.config = cfg := by
  rcases execE_bind.mp hexec with ⟨_, s, hstart, hpasses⟩ | ⟨e, -, he⟩
  · have hbegin : At (channelled X) w₀ Fresh .start s :=
      ⟨[], .start hstart, wpE_iff.mp (wp_start_fresh hw₀) _ _ hstart⟩
    have hloop : wpE (daemonEnv (channelled X)) (liftM (loop n))
        (fun _ t => ∃ p, ¬ Phase.Due p ∧ At (channelled X) w₀ Fresh p t)
        (fun (_ : Error) _ => True) s := by
      refine wpE_lift.mpr (wp_mono (wp_loop_rule (J := fun _ => Fresh) (fun _ => fresh_pass)
        (fun hf => hf.untouched (.refl _) rfl id id) (i := 0) n hbegin) fun _ t ht => ?_)
      rcases ht with ht | ⟨_, _, ht⟩
      · exact ⟨.start, id, ht⟩
      · exact ⟨.stopped, id, ht⟩
    obtain ⟨p, hdue, h, hrun, hf⟩ := wpE_iff.mp hloop _ t hpasses
    constructor
    · intro hnone hsignalled hwatched
      have hknown := hf.signal hdue hnone
      rw [Channels.known, max_eq_left hwatched, hsignalled] at hknown
      have hread : t.2.2.read = t.2.2.version := Nat.le_antisymm hf.sane.read hknown
      exact ⟨hread, fun cfg hjson => hf.current cfg ((hf.sane.got hread).trans hjson)⟩
    · refine ⟨h, hrun, fun r hr hkind hwatched => ?_⟩
      obtain ⟨hknown, hcurrent⟩ := hf.served r hr hkind
      rw [Channels.known, max_eq_left hwatched] at hknown
      exact ⟨hknown, hcurrent⟩
  · cases he

/-- The timeout that was written is in force, and the request was applied with it. -/
theorem written_config_in_force :
    mailFinal.1.config = { probeTimeoutSecs := 7 } ∧
      ∃ h, Run (channelled (liveExt noEthernetCtl.graph Eq)) mailWorld h mailFinal ∧
        ∀ r ∈ h, r.kind = .reconfigure → r.before.2.2.watchedFrom ≤ r.before.2.2.read →
          r.before.2.2.asOf ≤ r.before.2.2.read := by
  have hsane : mailWorld.2.Sane :=
    ⟨Nat.le_refl _, Nat.le_refl _, Nat.le_refl _, Nat.le_refl _, fun _ => rfl⟩
  have hexec : (run 3).run.Exec (daemonEnv (channelled (liveExt noEthernetCtl.graph Eq)))
      (.new {} .empty, mailWorld) (.ok ()) mailFinal := by
    refine execE_bind.mpr (Or.inl ⟨(), _, mail_started, ?_⟩)
    exact exec_bind.mpr ⟨(), _, mail_looped, rfl, rfl⟩
  obtain ⟨hnew, h, hrun, hserved⟩ := announced_config_in_force _ hsane hexec
  have hquiet : mailFinal.2.2.pending = 0 ∧ mailFinal.2.2.signalled = mailFinal.2.2.version ∧
      mailFinal.2.2.watchedFrom ≤ mailFinal.2.2.read := by decide +kernel
  have hjson : mailFinal.2.2.json = slowProbe := by decide +kernel
  have hvalid : Config.Valid { probeTimeoutSecs := 7 } := by decide +kernel
  obtain ⟨hnone, hsignalled, hwatched⟩ := hquiet
  exact ⟨(hnew hnone hsignalled hwatched).2 _ hjson hvalid, h, hrun,
    fun r hr hkind hread => (hserved r hr hkind hread).1⟩

end Micronet
