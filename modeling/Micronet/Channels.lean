import Micronet.Passes

/-!
# What reaches the loop

Two channels lead to the loop: requests of the control socket's clients, which its thread
sends on, and the signals of the watcher, which says that the configuration file may have
changed.  Clients, the file's writers and the watcher act at any time (`Happens`), also
during a step.  `channelled` puts them beside an outside.

Every request that is taken is served by one apply, at most one in a pass, and none waits
longer than its turn (`requests_served`).
-/
namespace Micronet
open Interaction Prog Relation

variable {ω : Type}

/-- The two channels, and what happens at their other ends. -/
structure Channels where
  /-- Requests sent so far, and how many of them the loop has taken. -/
  sent : Nat
  taken : Nat
  /-- What reading the file gives, and how often it was written. -/
  json : Except Error Config
  version : Nat
  /-- The version the watcher has last signalled; its signals not yet taken. -/
  signalled : Nat
  pending : Nat
  /-- The version the loop has last read, and what that gave. -/
  read : Nat
  got : Except Error Config
  /-- The version the watcher has started at. -/
  watchedFrom : Nat
  /-- The version that was signalled when the last request was taken. -/
  asOf : Nat

namespace Channels

/-- Something happens at the other ends. -/
inductive Happens (a : Channels) : Channels → Prop
  | request : Happens a { a with sent := a.sent + 1 }
  | write (json : Except Error Config) :
    Happens a { a with json := json, version := a.version + 1 }
  | signal : Happens a { a with signalled := a.version, pending := a.pending + 1 }

abbrev Later : Channels → Channels → Prop := ReflTransGen Happens

/-- What a call is answered, and what it takes. -/
def Answers : (c : ExtCall) → c.Ret → Channels → Channels → Prop
  | .recvEvent, .reconfigure, a, b =>
    a.taken < a.sent ∧ b = { a with taken := a.taken + 1, asOf := a.signalled }
  -- there was nothing when the time was up, or when the sender was gone
  | .recvEvent, .timeout, a, b | .recvEvent, .disconnected, a, b => a.sent ≤ a.taken ∧ b = a
  | .reloadPending, true, a, b => 0 < a.pending ∧ b = { a with pending := a.pending - 1 }
  | .reloadPending, false, a, b => a.pending = 0 ∧ b = a
  | .loadJson, r, a, b => r = a.json ∧ b = { a with read := a.version, got := a.json }
  -- the file may be missing, and impossible to create
  | .loadOrCreateJson, r, a, b =>
    (∀ cfg, r = .ok cfg → a.json = .ok cfg) ∧ b = { a with read := a.version, got := a.json }
  | .spawnWatch, _, a, b => b = { a with watchedFrom := a.version }
  | _, _, a, b => b = a

end Channels

/-- An outside with the channels beside it. -/
def channelled (X : Env ExtSig ω) : Env ExtSig (ω × Channels) := fun c s r t =>
  X c s.1 r t.1 ∧ ∃ b, s.2.Later b ∧ Channels.Answers c r b t.2

/-- The calls that a step can make. -/
def StepKind.Calls : StepKind → ExtCall → Prop
  | .reload, .loadJson | .tick, .ctl _ | .tick, .now | _, .apply _ => True
  | _, _ => False

/-- What the calls of a step keep, the step keeps. -/
theorem Stepped.keeps {X : Env ExtSig ω} {I : ω → Prop} {k : StepKind} {m m' : Mem} {w w' : ω}
    {l : Log ExtSig ω} (hI : ∀ {c : ExtCall} {s r t}, k.Calls c → I s → X c s r t → I t)
    (h : Stepped X m w k l m' w') (hw : I w) : I w' := by
  cases h with
  | loaded _ hload happly =>
    exact hI (c := .apply _) trivial (hI (c := .loadJson) trivial hw hload) happly
  | rejected _ hload => exact hI (c := .loadJson) trivial hw hload
  | reconfigured happly => exact hI (c := .apply _) trivial hw happly
  | unnamed => exact hw
  | unlinked _ hdown hnow _ =>
    exact hI (c := .now) trivial (hI (c := .ctl _) trivial hw hdown) hnow
  | reselected _ hdown hnow _ happly =>
    have hclock := hI (c := .now) trivial (hI (c := .ctl _) trivial hw hdown) hnow
    exact hI (c := .apply _) trivial hclock happly
  | linked _ hup hnow hexec _ _ =>
    have hclock := hI (c := .now) trivial (hI (c := .ctl _) trivial hw hup) hnow
    have hwatch := within_tickCarrier m.status.mode m.status.iface m.config
    refine (wp_iff.mp (wp_within (I := fun t : Mem × ω => I t.2) ?_ hwatch hclock) () (m', w')
      hexec).2
    intro op s r t hop hs hE
    cases op with
    | mem f =>
      obtain ⟨-, rfl⟩ := hE
      exact hs
    | ext c =>
      cases c with
      | ctl c => exact hI (c := .ctl c) trivial hs hE.1
      | _ => exact hop.elim

/-! ## Every request is served -/

/-- How many requests a history has served. -/
def served (h : List (Record ω)) : Nat := h.countP fun r => r.kind = .reconfigure

/-- A request that was taken is still to be served. -/
def Phase.owed : Phase → Nat
  | .received .reconfigure | .asked .reconfigure _ | .reloaded .reconfigure => 1
  | _ => 0

/-- The pass has looked for a request. -/
def Phase.looked : Phase → Nat
  | .start | .going => 0
  | _ => 1

/-- The loop is about to be left, or is. -/
def Phase.Cut : Phase → Prop
  | .received .disconnected | .stopped => True
  | _ => False

/-- No stop is requested, and the thread of the control socket lives on. -/
def Unstopped (X : Env ExtSig ω) : Prop :=
  ∀ w w', ¬ X .stopRequested w true w' ∧ ¬ X .recvEvent w .disconnected w'

/-- The books of the requests, `i` passes after the history `h₀` and the channels `c₀`. -/
structure Booked (X : Env ExtSig ω) (h₀ : List (Record (ω × Channels))) (c₀ : Channels) (i : Nat)
    (p : Phase) (h : List (Record (ω × Channels))) (_m : Mem) (w : ω × Channels) : Prop where
  /-- The history goes on from `h₀`. -/
  extension : h₀ <+: h
  /-- What was taken since `c₀` was served since `h₀`, or is owed in this phase. -/
  taken : w.2.taken + served h₀ = c₀.taken + served h + p.owed
  /-- No more is taken than was sent, and nothing sent is withdrawn. -/
  bound : w.2.taken ≤ w.2.sent
  sent : c₀.sent ≤ w.2.sent
  /-- A pass takes one request at most. -/
  pace : w.2.taken ≤ c₀.taken + i + p.looked
  /-- Unless the loop has stopped, each pass took one or none was left of those at `c₀`. -/
  progress : p ≠ .stopped → c₀.taken + i + p.looked ≤ w.2.taken ∨ c₀.sent ≤ w.2.taken
  /-- The loop is cut short only by a stop request or a lost channel. -/
  cut : p.Cut → ¬ Unstopped X

theorem Channels.Later.requests {a b : Channels} (h : a.Later b) :
    b.taken = a.taken ∧ a.sent ≤ b.sent := by
  induction h with
  | refl => exact ⟨rfl, Nat.le_refl _⟩
  | tail _ hstep ih =>
    cases hstep with
    | request => exact ⟨ih.1, Nat.le_succ_of_le ih.2⟩
    | write json => exact ih
    | signal => exact ih

/-- Only `recvEvent` takes a request. -/
theorem channelled_requests {X : Env ExtSig ω} {c : ExtCall} {r : c.Ret} {w w' : ω × Channels}
    (hc : c ≠ .recvEvent) (h : channelled X c w r w') :
    w'.2.taken = w.2.taken ∧ w.2.sent ≤ w'.2.sent := by
  obtain ⟨-, b, hlater, hanswer⟩ := h
  obtain ⟨htaken, hsent⟩ := hlater.requests
  have hkept : w'.2.taken = b.taken ∧ w'.2.sent = b.sent := by
    cases c with
    | recvEvent => exact absurd rfl hc
    | reloadPending =>
      cases r with
      | true => rw [hanswer.2]; exact ⟨rfl, rfl⟩
      | false => rw [hanswer.2]; exact ⟨rfl, rfl⟩
    | loadJson | loadOrCreateJson => rw [hanswer.2]; exact ⟨rfl, rfl⟩
    | _ => rw [hanswer]; exact ⟨rfl, rfl⟩
  omega

theorem served_snoc (h : List (Record ω)) (r : Record ω) :
    served (h ++ [r]) = served h + if r.kind = .reconfigure then 1 else 0 := by
  simp [served, List.countP_append, List.countP_singleton]

section Booked
variable {X : Env ExtSig ω} {h₀ h : List (Record (ω × Channels))} {c₀ : Channels} {i : Nat}
  {p q : Phase} {m m' : Mem} {w w' : ω × Channels}

/-- Requests may be sent, and none taken. -/
theorem Booked.quiet (hb : Booked X h₀ c₀ i p h m w)
    (hw : w'.2.taken = w.2.taken ∧ w.2.sent ≤ w'.2.sent) (howed : q.owed = p.owed)
    (hlooked : q.looked = p.looked) (hp : p ≠ .stopped) (hq : ¬ q.Cut) :
    Booked X h₀ c₀ i q h m' w' := by
  have hprogress := hb.progress hp
  have htaken := hb.taken
  have hbound := hb.bound
  have hsent := hb.sent
  have hpace := hb.pace
  refine ⟨hb.extension, ?_, ?_, ?_, ?_, fun _ => ?_, fun h => absurd h hq⟩
  · omega
  · omega
  · omega
  · omega
  · rw [hlooked, hw.1]
    exact hprogress

/-- A step other than that of a request. -/
theorem Booked.step {k : StepKind} {l : Log ExtSig (ω × Channels)}
    (hb : Booked X h₀ c₀ i p h m w) (hstep : Stepped (channelled X) m w k l m' w')
    (howed : q.owed + (if k = .reconfigure then 1 else 0) = p.owed)
    (hlooked : q.looked = p.looked) (hp : p ≠ .stopped) (hq : ¬ q.Cut) :
    Booked X h₀ c₀ i q (h ++ [⟨k, (m, w), l, (m', w')⟩]) m' w' := by
  have hquiet : w'.2.taken = w.2.taken ∧ w.2.sent ≤ w'.2.sent := by
    refine hstep.keeps (I := fun u => u.2.taken = w.2.taken ∧ w.2.sent ≤ u.2.sent) ?_
      ⟨rfl, Nat.le_refl _⟩
    intro c s r t hc hs hX
    have hne : c ≠ .recvEvent := by
      rintro rfl
      cases k <;> exact hc
    have hst := channelled_requests hne hX
    omega
  have hprogress := hb.progress hp
  have htaken := hb.taken
  have hbound := hb.bound
  have hsent := hb.sent
  have hpace := hb.pace
  refine ⟨hb.extension.trans (List.prefix_append _ _), ?_, ?_, ?_, ?_, fun _ => ?_,
    fun h => absurd h hq⟩
  · rw [served_snoc]
    dsimp only
    omega
  · omega
  · omega
  · omega
  · rw [hlooked, hquiet.1]
    exact hprogress

/-- What the loop learns when it looks for a request. -/
theorem Booked.receive (event : Recv) (hb : Booked X h₀ c₀ i .going h m w)
    (hX : channelled X .recvEvent w event w') :
    Booked X h₀ c₀ i (.received event) h m w' := by
  obtain ⟨hX, b, hlater, hanswer⟩ := hX
  obtain ⟨htaken, hsent⟩ := hlater.requests
  have hprogress := hb.progress nofun
  have hbooks := hb.taken
  have hfrom := hb.sent
  have hpace := hb.pace
  by_cases hevent : event = .reconfigure
  · subst hevent
    obtain ⟨hmore, hw'⟩ := hanswer
    have htook : w'.2.taken = b.taken + 1 ∧ w'.2.sent = b.sent := by
      rw [hw']
      exact ⟨rfl, rfl⟩
    simp only [Phase.owed, Phase.looked] at hbooks hprogress hpace
    refine ⟨hb.extension, ?_, ?_, ?_, ?_, fun _ => ?_, nofun⟩
    · simp only [Phase.owed]
      omega
    · omega
    · omega
    · simp only [Phase.looked]
      omega
    · simp only [Phase.looked]
      omega
  · have hnothing : b.sent ≤ b.taken ∧ w'.2 = b := by
      cases event with
      | reconfigure => exact absurd rfl hevent
      | timeout => exact hanswer
      | disconnected => exact hanswer
    have howed : (Phase.received event).owed = 0 := by
      cases event with
      | reconfigure => exact absurd rfl hevent
      | timeout => rfl
      | disconnected => rfl
    obtain ⟨hempty, hw'⟩ := hnothing
    refine ⟨hb.extension, ?_, ?_, ?_, ?_, fun _ => Or.inr ?_, fun hcut hopen => ?_⟩
    · rw [hw', howed, htaken]
      exact hbooks
    · rw [hw', htaken]
      exact hb.bound.trans hsent
    · rw [hw']
      exact hfrom.trans hsent
    · rw [hw', htaken]
      exact Nat.le_succ_of_le hpace
    · rw [hw']
      exact (hfrom.trans hsent).trans hempty
    · cases event with
      | reconfigure => exact hcut
      | timeout => exact hcut
      | disconnected => exact (hopen _ _).2 hX

theorem booked_pass : Pass (channelled X) (Booked X h₀ c₀ i) where
  stopRequested stop hb hX := by
    have hw := channelled_requests (c := .stopRequested) nofun hX
    cases stop with
    | false => exact hb.quiet hw rfl rfl nofun id
    | true =>
      have hquiet : Booked X h₀ c₀ i .start _ ‹Mem› _ := hb.quiet hw rfl rfl nofun id
      refine ⟨hquiet.extension, hquiet.taken, hquiet.bound, hquiet.sent,
        Nat.le_succ_of_le hquiet.pace, fun h => absurd rfl h, fun _ hopen => ?_⟩
      exact (hopen _ _).1 hX.1
  recvEvent event hb hX := hb.receive event hX
  disconnected hb := by
    refine ⟨hb.extension, hb.taken, hb.bound, hb.sent, hb.pace, fun h => absurd rfl h, fun _ => ?_⟩
    exact hb.cut trivial
  reloadPending event reload hb hX := by
    refine hb.quiet (channelled_requests (c := .reloadPending) nofun hX) ?_ rfl nofun id
    cases event <;> rfl
  unchanged event hb := by
    refine hb.quiet ⟨rfl, Nat.le_refl _⟩ ?_ rfl nofun id
    cases event <;> rfl
  reload event _ hb hstep := by
    refine hb.step hstep ?_ rfl nofun id
    cases event <;> rfl
  timeout hb := hb.quiet ⟨rfl, Nat.le_refl _⟩ rfl rfl nofun id
  reconfigure _ hb hstep := hb.step hstep rfl rfl nofun id
  now _ hb hX := hb.quiet (channelled_requests (c := .now) nofun hX) rfl rfl nofun id
  timer _ hb := hb.quiet ⟨rfl, Nat.le_refl _⟩ rfl rfl nofun id
  tick _ hb hstep := hb.step hstep rfl rfl nofun id

theorem booked_next (hb : Booked X h₀ c₀ i .served h m w) :
    Booked X h₀ c₀ (i + 1) .start h m w := by
  have hpace := hb.pace
  have hprogress := hb.progress nofun
  refine ⟨hb.extension, hb.taken, hb.bound, hb.sent, hpace, fun _ => hprogress, nofun⟩

end Booked

/-- What serves a request is one apply of the configuration in force. -/
theorem Run.reconfigured {X : Env ExtSig ω} {w₀ : ω} {h : List (Record ω)} {s : Mem × ω}
    (hrun : Run X w₀ h s) : ∀ r ∈ h, r.kind = .reconfigure →
      ∃ out, r.events = [⟨.apply r.before.1.config, r.before.2, out⟩] := by
  refine hrun.rule (I := fun h _ _ => ∀ r ∈ h, r.kind = .reconfigure →
    ∃ out, r.events = [⟨.apply r.before.1.config, r.before.2, out⟩]) ?_ ?_ ?_ ?_
  · exact fun _ _ _ _ _ _ _ r hr => absurd hr List.not_mem_nil
  · exact fun _ _ _ _ h _ => h
  · exact fun _ _ _ _ h => h
  · intro h m w k l m' w' _ ih hstep r hr hkind
    rcases List.mem_append.mp hr with hr | hr
    · exact ih r hr hkind
    · obtain rfl := List.mem_singleton.mp hr
      cases hstep with
      | reconfigured _ => exact ⟨_, rfl⟩
      | _ => cases hkind

/-- **Every request is served, and served once.**  Whatever happens at the other ends while
`n` passes of the loop are made: the requests taken are as many as the applies made for them,
each of the configuration in force; they are among those sent, and no pass takes two.  Unless
the loop is stopped, `n` passes serve at least `n` of the requests that were waiting, or all of
them. -/
theorem requests_served (X : Env ExtSig ω) {w₀ : ω × Channels}
    {h₀ : List (Record (ω × Channels))} {s t : Mem × ω × Channels}
    (hrun : Run (channelled X) w₀ h₀ s) (hsent : s.2.2.taken ≤ s.2.2.sent) {n : Nat}
    (hexec : (loop n).Exec (daemonEnv (channelled X)) s () t) :
    ∃ h, Run (channelled X) w₀ (h₀ ++ h) t ∧ t.2.2.taken = s.2.2.taken + served h ∧
      (∀ r ∈ h, r.kind = .reconfigure →
        ∃ out, r.events = [⟨.apply r.before.1.config, r.before.2, out⟩]) ∧
      t.2.2.taken ≤ t.2.2.sent ∧ served h ≤ n ∧
      (Unstopped X → min n (s.2.2.sent - s.2.2.taken) ≤ served h) := by
  have hstart : At (channelled X) w₀ (Booked X h₀ s.2.2 0) .start s := by
    refine ⟨h₀, hrun, List.prefix_rfl, rfl, hsent, Nat.le_refl _, Nat.le_refl _, fun _ => ?_, nofun⟩
    exact Or.inl (Nat.le_refl _)
  have hloop := wp_iff.mp (wp_loop_rule (J := fun i => Booked X h₀ s.2.2 i)
    (fun _ => booked_pass) booked_next n hstart) () t hexec
  have hend : ∃ h p i, Run (channelled X) w₀ h t ∧ Booked X h₀ s.2.2 i p h t.1 t.2 ∧
      p.owed = 0 ∧ i + p.looked ≤ n ∧ (Unstopped X → i + p.looked = n ∧ p ≠ .stopped) := by
    rcases hloop with ⟨h, ht, hb⟩ | ⟨j, hj, h, ht, hb⟩
    · exact ⟨h, .start, 0 + n, ht, hb, rfl, by simp [Phase.looked],
        fun _ => ⟨by simp [Phase.looked], nofun⟩⟩
    · refine ⟨h, .stopped, j, ht, hb, rfl, ?_, fun hopen => absurd hopen (hb.cut trivial)⟩
      simp only [Phase.looked]
      omega
  obtain ⟨h, p, i, ht, hb, howed, hi, hfull⟩ := hend
  obtain ⟨seg, rfl⟩ := hb.extension
  have hcount : served (h₀ ++ seg) = served h₀ + served seg := List.countP_append
  have htaken := hb.taken
  have hpace := hb.pace
  refine ⟨seg, ht, by omega, fun r hr => ?_, hb.bound, by omega, fun hopen => ?_⟩
  · exact ht.reconfigured r (List.mem_append_right _ hr)
  · obtain ⟨hpassed, hopen⟩ := hfull hopen
    have hprogress := hb.progress hopen
    omega

/-! ### A configuration is written, and a request sent after it -/

/-- Before the first look for a request, the file is written and its change signalled, and
a client asks to reconfigure. -/
def Channels.firstWrite (json : Except Error Config) (c : Channels) : Channels :=
  if c.sent = 0 then
    { c with json := json, version := c.version + 1, signalled := c.version + 1,
             pending := c.pending + 1, sent := c.sent + 1 }
  else c

theorem Channels.later_firstWrite (json : Except Error Config) (c : Channels) :
    c.Later (c.firstWrite json) := by
  unfold Channels.firstWrite
  split
  · exact .tail (.tail (.single (.write json)) .signal) .request
  · exact .refl

def channelHandler {σ : Type} (H : Handler CtlSig σ) (json : Except Error Config) :
    Handler ExtSig (σ × Channels)
  | .recvEvent, (s, c) =>
    let c := c.firstWrite json
    if c.taken < c.sent then
      (.reconfigure, s, { c with taken := c.taken + 1, asOf := c.signalled })
    else (.timeout, s, c)
  | .reloadPending, (s, c) =>
    if 0 < c.pending then (true, s, { c with pending := c.pending - 1 }) else (false, s, c)
  | .loadJson, (s, c) | .loadOrCreateJson, (s, c) =>
    (c.json, s, { c with read := c.version, got := c.json })
  | .spawnWatch, (s, c) => (.ok (), s, { c with watchedFrom := c.version })
  | c, (s, ch) => ((liveHandler H json c s).1, (liveHandler H json c s).2, ch)

theorem channelHandler_implements {σ : Type} (H : Handler CtlSig σ) (json : Except Error Config) :
    (channelHandler H json).Implements (channelled (liveExt H.graph Eq)) := by
  have hlive := liveHandler_implements H.implements_graph (D := Eq) (fun _ => rfl) json
  intro c s
  obtain ⟨s, ch⟩ := s
  cases c with
  | recvEvent =>
    refine ⟨?_, ch.firstWrite json, ch.later_firstWrite json, ?_⟩ <;>
      (simp only [channelHandler]; split)
    · rfl
    · rfl
    · exact ⟨‹_›, rfl⟩
    · exact ⟨Nat.le_of_not_lt ‹_›, rfl⟩
  | reloadPending =>
    refine ⟨?_, ch, .refl, ?_⟩ <;> (simp only [channelHandler]; split)
    · rfl
    · rfl
    · exact ⟨‹_›, rfl⟩
    · exact ⟨Nat.eq_zero_of_not_pos ‹_›, rfl⟩
  | loadJson => exact ⟨rfl, ch, .refl, rfl, rfl⟩
  | loadOrCreateJson => exact ⟨rfl, ch, .refl, fun _ h => h, rfl⟩
  | spawnWatch => exact ⟨rfl, ch, .refl, rfl⟩
  | apply cfg => exact ⟨hlive (.apply cfg) s, ch, .refl, rfl⟩
  | ctl c => exact ⟨hlive (.ctl c) s, ch, .refl, rfl⟩
  | now => exact ⟨hlive .now s, ch, .refl, rfl⟩
  | serve => exact ⟨hlive .serve s, ch, .refl, rfl⟩
  | installSignals => exact ⟨hlive .installSignals s, ch, .refl, rfl⟩
  | stopRequested => exact ⟨hlive .stopRequested s, ch, .refl, rfl⟩

/-- A file with the defaults, and nobody there yet. -/
def quietChannels : Channels :=
  { sent := 0, taken := 0, json := .ok {}, version := 0, signalled := 0, pending := 0, read := 0,
    got := .ok {}, watchedFrom := 0, asOf := 0 }

/-- The file is given another timeout. -/
def slowProbe : Except Error Config := .ok { probeTimeoutSecs := 7 }

def mailHandler : Handler ExtSig ((Net × Bool) × Channels) :=
  channelHandler noEthernetCtl slowProbe

def mailWorld : (Net × Bool) × Channels :=
  (({ oneEthernet [] with ethernets := [] }, false), quietChannels)

/-- Three passes after the start. -/
def mailFinal : Mem × (Net × Bool) × Channels :=
  ((loop 3).run (daemonHandler mailHandler) (boots mailHandler mailWorld).2).2

theorem mail_started : start.run.Exec (daemonEnv (channelled (liveExt noEthernetCtl.graph Eq)))
    (.new {} .empty, mailWorld) (.ok ()) (boots mailHandler mailWorld).2 :=
  have hok : (boots mailHandler mailWorld).1 = .ok () := by decide +kernel
  hok ▸ (daemonHandler_implements (channelHandler_implements _ _)).exec start.run _

theorem mail_looped : (loop 3).Exec (daemonEnv (channelled (liveExt noEthernetCtl.graph Eq)))
    (boots mailHandler mailWorld).2 () mailFinal :=
  (daemonHandler_implements (channelHandler_implements _ _)).exec (loop 3) _

theorem first_request_served :
    ∃ h, Run (channelled (liveExt noEthernetCtl.graph Eq)) mailWorld h mailFinal ∧
      served h = 1 ∧ mailFinal.2.2.sent = 1 := by
  have hbegin : (boots mailHandler mailWorld).2.2.2.taken = 0 := by decide +kernel
  have hfinal : mailFinal.2.2.taken = 1 ∧ mailFinal.2.2.sent = 1 := by decide +kernel
  obtain ⟨h, hrun, htaken, -⟩ := requests_served (liveExt noEthernetCtl.graph Eq)
    (.start mail_started) (hbegin ▸ Nat.zero_le _) mail_looped
  exact ⟨h, hrun, by omega, hfinal.2⟩

end Micronet
