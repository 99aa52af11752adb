import Micronet.Agreement
import Micronet.KernelRefines
import Micronet.LiveDaemon
import Micronet.Trial

/-!
# Runs of the daemon on its machine

A simulation of the calls of `NetOps` is one of the calls of both traits, of the outside of
the daemon, and of its loop.  So every run of the daemon with `LiveNet` on a machine is
matched, step by step and call by call, by a run on the abstract network
(`live_run_refines`).  What is proved of the abstract runs holds of the machine: of its
physical Ethernets only the one chosen last is up or has an address (`live_isolated`).
-/
namespace Micronet
open Interaction Prog Net

variable {σ τ ν ν' γ γ' ω ω' : Type}

/-! ## Simulations of the outside -/

section Lift

/-- The two traits beside each other. -/
theorem simulates_beside {N : Env NetSig ν} {N' : Env NetSig ν'} {G : Env GwSig γ}
    {G' : Env GwSig γ'} {R : ν → ν' → Prop} {K : γ → γ' → Prop} (hN : Simulates N N' R)
    (hG : Simulates G G' K) :
    Simulates (ctlEnv N G) (ctlEnv N' G') fun s x => R s.1 x.1 ∧ K s.2 x.2 := by
  rintro (c | c) s r t x ⟨hs, hg⟩ ⟨hop, hsame⟩
  · obtain ⟨y, hy, ht⟩ := hN c s.1 r t.1 x.1 hs hop
    exact ⟨(y, x.2), ⟨hy, rfl⟩, ht, hsame ▸ hg⟩
  · obtain ⟨y, hy, ht⟩ := hG c s.2 r t.2 x.2 hg hop
    exact ⟨(x.1, y), ⟨hy, rfl⟩, hsame ▸ hs, ht⟩

/-- The outside of the daemon, where what happens in a pause is matched too. -/
theorem simulates_outside {W : Env CtlSig σ} {W' : Env CtlSig τ} {D : σ → σ → Prop}
    {K : τ → τ → Prop} {R : σ → τ → Prop} (h : Simulates W W' R)
    (hD : ∀ s t x, R s x → D s t → ∃ y, K x y ∧ R t y) :
    Simulates (liveExt W D) (liveExt W' K) R := by
  intro c s r t x hs hop
  cases c with
  | apply cfg => exact h.exec hs hop
  | ctl c => exact h c s r t x hs hop
  | _ => exact hD s t x hs hop

/-- The same, with the calls written down. -/
theorem simulates_log {W : Env CtlSig σ} {W' : Env CtlSig τ} {D : σ → σ → Prop}
    {K : τ → τ → Prop} {R : σ → τ → Prop} (h : Simulates W W' R)
    (hD : ∀ s t x, R s x → D s t → ∃ y, K x y ∧ R t y) :
    Simulates (liveLog W D) (liveLog W' K)
      fun s x => R s.1 x.1 ∧ List.Forall₂ (Event.Matches R) s.2 x.2 := by
  refine simulates_outside h.logged ?_
  rintro s t x ⟨hs, hl⟩ ⟨hst, hlog⟩
  obtain ⟨y, hy, ht⟩ := hD s.1 t.1 x.1 hs hst
  exact ⟨(y, x.2), ⟨hy, rfl⟩, ht, hlog ▸ hl⟩

/-- The same memory, and related outsides. -/
structure Abreast (R : ω → ω' → Prop) (s : Mem × ω) (x : Mem × ω') : Prop where
  mem : x.1 = s.1
  outside : R s.2 x.2

theorem simulates_daemon {X : Env ExtSig ω} {X' : Env ExtSig ω'} {R : ω → ω' → Prop}
    (h : Simulates X X' R) : Simulates (daemonEnv X) (daemonEnv X') (Abreast R) := by
  rintro (f | c) s r t x ⟨hmem, hs⟩ hop
  · obtain ⟨rfl, rfl⟩ := hop
    exact ⟨(f x.1, x.2), ⟨hmem.symm, rfl⟩, congrArg f hmem, hs⟩
  · obtain ⟨hX, hm⟩ := hop
    obtain ⟨y, hy, ht⟩ := h c s.2 r t.2 x.2 hs hX
    exact ⟨(x.1, y), ⟨hy, rfl⟩, hmem.trans hm.symm, ht⟩

end Lift

/-! ## Simulations of runs -/

/-- One step of a run matches another: the same kind with the same calls and answers, from
the same memory to the same. -/
structure Record.Matches (R : ω → ω' → Prop) (a : Record ω) (b : Record ω') : Prop where
  kind : b.kind = a.kind
  /-- The memory before the step is the same, and so it is after it. -/
  before : Abreast R a.before b.before
  /-- Each call has the same answer. -/
  events : List.Forall₂ (Event.Matches R) a.events b.events
  after : Abreast R a.after b.after

/-- **Runs are matched** where the outside is. -/
theorem Run.simulated {X : Env ExtSig ω} {X' : Env ExtSig ω'} {R : ω → ω' → Prop}
    (hsim : Simulates X X' R) {w₀ : ω} {z : ω'} (h₀ : R w₀ z) {h : List (Record ω)}
    {s : Mem × ω} (hrun : Run X w₀ h s) :
    ∃ h' x, Run X' z h' x ∧ Abreast R s x ∧ List.Forall₂ (Record.Matches R) h h' := by
  induction hrun with
  | @start m₀ s hstart =>
    obtain ⟨x, hx, hs⟩ := (simulates_daemon hsim).exec (x := (m₀, z)) ⟨rfl, h₀⟩ hstart
    exact ⟨[], x, .start hx, hs, .nil⟩
  | @pause h m w w' c r _ hc hX ih =>
    obtain ⟨h', ⟨n, x⟩, hrun', ⟨hmem, hw⟩, hh⟩ := ih
    obtain ⟨y, hy, hw'⟩ := hsim c w r w' x hw hX
    exact ⟨h', (n, y), hrun'.pause hc hy, ⟨hmem, hw'⟩, hh⟩
  | @timer h m w _ t ih =>
    obtain ⟨h', ⟨n, x⟩, hrun', ⟨hmem, hw⟩, hh⟩ := ih
    obtain rfl : n = m := hmem
    exact ⟨h', _, hrun'.timer t, ⟨rfl, hw⟩, hh⟩
  | @step h m m' w w' l k _ hexec ih =>
    obtain ⟨h', ⟨n, x⟩, hrun', ⟨hmem, hw⟩, hh⟩ := ih
    obtain ⟨⟨n', x', l'⟩, hexec', hmem', hw', hl⟩ :=
      (simulates_daemon hsim.logged).exec (x := (n, x, [])) ⟨hmem, hw, .nil⟩ hexec
    refine ⟨_, (n', x'), hrun'.step k hexec', ⟨hmem', hw'⟩, ?_⟩
    exact List.rel_append hh (.cons ⟨rfl, ⟨hmem, hw⟩, hl, ⟨hmem', hw'⟩⟩ .nil)

/-! ## The interface chosen last -/

/-- The interface that was resolved last. -/
def lastResolved (l : Log CtlSig σ) : Option String := lastOf Event.resolved l

/-- The listing can be read, and of the physical Ethernets all but the one chosen last are
down, and have no address if no flush can be in vain. -/
def Sealed (flushes : Prop) (n : Net) (l : Log CtlSig σ) : Prop :=
  n.listError = none ∧ ∀ k, lastResolved l = some k → Isolated flushes n.ethernets k n

section Sealed
variable {F : NetCall → Prop} {U : NetCall → Net → Prop} {flushes : Prop} {G : Env GwSig γ}
  {n t : Net} {l : Log CtlSig σ}

theorem lastResolved_append {seg : Log CtlSig σ} (h : ∀ e ∈ seg, Event.resolved e = none) :
    lastResolved (l ++ seg) = lastResolved l := by
  rw [lastResolved, lastOf_append, lastOf_eq_none.mpr h, Option.none_or]
  rfl

theorem sealed_nil (h : n.listError = none) : Sealed flushes n ([] : Log CtlSig σ) :=
  ⟨h, fun k hk => (Option.some_ne_none k hk.symm).elim⟩

theorem Sealed.append (h : Sealed flushes n l) {seg : Log CtlSig σ}
    (hseg : ∀ e ∈ seg, Event.resolved e = none) : Sealed flushes n (l ++ seg) :=
  ⟨h.1, fun k hk => h.2 k (lastResolved_append hseg ▸ hk)⟩

theorem Sealed.of_alike (h : Sealed flushes n l) (hlisting : t.ethernets = n.ethernets)
    (hlist : t.listError = n.listError) (hup : t.up = n.up)
    (haddrs : ∀ i, t.addrsOf i = n.addrsOf i) : Sealed flushes t l := by
  refine ⟨hlist.trans h.1, fun k hk i hi hne => ?_⟩
  rw [hup, haddrs]
  exact h.2 k hk i (hlisting ▸ hi) hne

/-- A resolution that fails has set nothing up. -/
theorem resolve_error {configured : Option String} {e : Error}
    (h : Net.slack F U (.resolveIface configured) n (.error e) t) : t = n := by
  rcases env_of_slack rfl h with h | ⟨-, -, h⟩
  swap
  · exact h
  have hauto : wpE Net.sysEnv (LiveNet.resolveAuto .live) (fun _ _ => True) (fun _ u => u = n)
      n := by
    unfold LiveNet.resolveAuto
    rw [wpE_bind, wpE_mk]
    rintro r u ⟨-, rfl⟩
    rw [wp_ret]
    cases r with
    | error e => exact rfl
    | ok names =>
      cases names with
      | nil => exact rfl
      | cons fallback names =>
        rw [post_ok, wpE_bind, wpE_lift]
        refine wp_iff.mpr fun found u _ => ?_
        cases found with
        | some name => exact trivial
        | none =>
          rw [wpE_bind, if_pos rfl, wpE_lift]
          exact wp_iff.mpr fun _ _ _ => trivial
  have hpinned : ∀ name, wpE Net.sysEnv (LiveNet.resolvePinned name) (fun _ _ => True)
      (fun _ u => u = n) n := by
    intro name
    rw [LiveNet.resolvePinned, wpE_bind, wpE_lift]
    rintro r u ⟨-, rfl⟩
    cases r with
    | true => exact trivial
    | false => exact rfl
  have hresolve : wpE Net.sysEnv (LiveNet.resolveIface configured) (fun _ _ => True)
      (fun _ u => u = n) n := by
    unfold LiveNet.resolveIface LiveNet.resolveIfaceWith
    cases configured with
    | none => exact hauto
    | some name =>
      by_cases hname : name = LiveNet.autoIface
      · simpa only [if_pos hname] using hauto
      · simpa only [if_neg hname] using hpinned name
  exact wpE_iff.mp hresolve (.error e) t h

/-- None of the calls that follow a resolution resolves. -/
theorem follows_resolved {k : String} {e : Event CtlSig σ} (h : CtlCall.Follows k e.op) :
    Event.resolved e = none := by
  obtain ⟨op, pre, r⟩ := e
  cases op with
  | gw c => rfl
  | net c =>
    cases c <;> try rfl
    rcases h with h | h <;> exact h.elim

theorem ctlEnv_listing {c : CtlCall} {s u : Net × γ} {r : c.Ret}
    (h : ctlEnv (Net.slack F U) G c s r u) :
    u.1.ethernets = s.1.ethernets ∧ u.1.listError = s.1.listError := by
  cases c with
  | gw c => exact h.2 ▸ ⟨rfl, rfl⟩
  | net c =>
    rcases effect_of_slack h.1 with h | h
    · exact Net.effect_listing h
    · exact h ▸ ⟨rfl, rfl⟩

/-- **An apply** chooses anew, or leaves everything as it is. -/
theorem wpE_applyWith_sealed (hF : ∀ c, F c → ¬ c.isolates)
    (hU : flushes → ∀ i n, ¬ U (.flushAddr i) n) (cfg : Config) {s : Net × γ}
    {l : Log CtlSig (Net × γ)} (hs : Sealed flushes s.1 l) :
    wpE (ctlEnv (Net.slack F U) G).logged (applyWith cfg) (fun _ t => Sealed flushes t.1.1 t.2)
      (fun _ t => Sealed flushes t.1.1 t.2) (s, l) := by
  rw [applyWith_eq, wpE_bind, wpE_mk, wp_pure]
  cases cfg.validate with
  | error e => exact hs
  | ok _ =>
    rw [post_ok, wpE_bind, wpE_mk, wp_logged_net]
    intro r t hr
    rw [wp_ret]
    cases r with
    | error e =>
      obtain rfl := resolve_error hr
      refine hs.append fun e he => ?_
      rw [List.mem_singleton.mp he]
      rfl
    | ok k =>
      obtain ⟨hethernets, hlist⟩ := ctlEnv_listing (G := G) (c := .net _) (s := s) (u := (t, s.2))
        ⟨hr, rfl⟩
      change t.ethernets = _ at hethernets
      change t.listError = _ at hlist
      rw [post_ok]
      have hchosen : ∀ seg : Log CtlSig (Net × γ), (∀ e ∈ seg, CtlCall.Follows k e.op) →
          ∀ m, m = l ++ [⟨.net (.resolveIface cfg.interface), s, .ok k⟩] ++ seg →
          lastResolved m = some k := by
        rintro seg hseg _ rfl
        rw [lastResolved_append fun e he => follows_resolved (hseg e he), lastResolved,
          lastOf_append]
        rfl
      refine wpE_mono (wpE_and (wpE_logged (wpE_applyOn hF hU (hlist.trans hs.1)))
        (wpE_within_logged (I := fun u => u.1.ethernets = t.ethernets ∧ u.1.listError = t.listError)
          (fun _ _ _ _ _ hu h => ?_) (within_applyOn_follows cfg k) ⟨rfl, rfl⟩)) ?_ ?_
      · exact ⟨(ctlEnv_listing h).1.trans hu.1, (ctlEnv_listing h).2.trans hu.2⟩
      · rintro st ⟨u, m⟩ ⟨⟨-, hiso, -⟩, -, ⟨heth, herr⟩, seg, hm, hseg⟩
        refine ⟨herr.trans (hlist.trans hs.1), fun k' hk' => ?_⟩
        obtain rfl := Option.some.inj ((hchosen seg hseg m hm).symm.trans hk')
        exact heth ▸ hiso
      · rintro e ⟨u, m⟩ ⟨hiso, ⟨heth, herr⟩, seg, hm, hseg⟩
        refine ⟨herr.trans (hlist.trans hs.1), fun k' hk' => ?_⟩
        obtain rfl := Option.some.inj ((hchosen seg hseg m hm).symm.trans hk')
        exact heth ▸ hiso

/-- The calls of a tick: none acts on a link or an address. -/
def CtlCall.Watches : CtlCall → Prop
  | .gw _ | .net (.carrierUp _) | .net (.ifaceIpv4Cidr _) | .net (.dhclientRunning _)
  | .net (.startDhclient _) => True
  | _ => False

theorem Sealed.watch {c : CtlCall} (hop : c.Watches) {s u : (Net × γ) × Log CtlSig (Net × γ)}
    {r : c.Ret} (hs : Sealed flushes s.1.1 s.2) (h : (ctlEnv (Net.slack F U) G).logged c s r u) :
    Sealed flushes u.1.1 u.2 := by
  obtain ⟨hE, hlog⟩ := h
  rw [hlog]
  have hresolved : Event.resolved (σ := Net × γ) ⟨c, s.1, r⟩ = none := by
    cases c with
    | gw c => rfl
    | net c => cases c <;> first | rfl | exact hop.elim
  refine Sealed.append ?_ fun e he => List.mem_singleton.mp he ▸ hresolved
  cases c with
  | gw c => exact hE.2 ▸ hs
  | net c =>
    rcases effect_of_slack hE.1 with h | h
    swap
    · exact h ▸ hs
    cases c with
    | startDhclient i =>
      obtain ⟨-, h⟩ := h
      exact hs.of_alike (h ▸ rfl) (h ▸ rfl) (h ▸ rfl) fun j => h ▸ rfl
    | carrierUp i =>
      have hsame : u.1.1 = s.1.1 := h
      exact hsame ▸ hs
    | ifaceIpv4Cidr i => exact h.2 ▸ hs
    | dhclientRunning i => exact h.2 ▸ hs
    | _ => exact hop.elim

/-! ## Runs on the abstract network -/

section Run
variable {D : Net × γ → Net × γ → Prop} {m m' : Mem} {w w' : (Net × γ) × Log CtlSig (Net × γ)}

theorem Sealed.tickCarrier (hw : Sealed flushes w.1.1 w.2) {mode : Mode} {iface : String}
    {cfg : Config} (h : (tickCarrier mode iface cfg).Exec
      (daemonEnv (liveLog (ctlEnv (Net.slack F U) G) D)) (m, w) () (m', w')) :
    Sealed flushes w'.1.1 w'.2 := by
  refine (wp_iff.mp (wp_within (I := fun t : Mem × _ => Sealed flushes t.2.1.1 t.2.2) ?_
    (within_tickCarrier mode iface cfg) hw) () (m', w') h).2
  rintro (f | c) s r t hop hs hE
  · exact hE.2 ▸ hs
  · cases c with
    | ctl c =>
      refine hs.watch (c := c) ?_ hE.1
      cases c with
      | gw c => trivial
      | net c => cases c <;> trivial
    | _ => exact hop.elim

theorem Sealed.step (hF : ∀ c, F c → ¬ c.isolates)
    (hU : flushes → ∀ i n, ¬ U (.flushAddr i) n) (hD : ∀ s t, D s t → t.1 = s.1) {k : StepKind}
    {l : Log ExtSig _} (hw : Sealed flushes w.1.1 w.2)
    (h : Stepped (liveLog (ctlEnv (Net.slack F U) G) D) m w k l m' w') :
    Sealed flushes w'.1.1 w'.2 := by
  have hpause : ∀ {v v' : (Net × γ) × Log CtlSig (Net × γ)}, Sealed flushes v.1.1 v.2 →
      D v.1 v'.1 ∧ v'.2 = v.2 → Sealed flushes v'.1.1 v'.2 := by
    rintro v v' hv ⟨hdrift, hlog⟩
    rw [hD _ _ hdrift, hlog]
    exact hv
  have happly : ∀ {cfg : Config} {out : Except Error Status} {v v' : (Net × γ) × Log CtlSig _},
      Sealed flushes v.1.1 v.2 → liveLog (ctlEnv (Net.slack F U) G) D (.apply cfg) v out v' →
      Sealed flushes v'.1.1 v'.2 := by
    intro cfg out v v' hv h
    have hpost := wpE_iff.mp (wpE_applyWith_sealed hF hU cfg hv) out v' h
    cases out with
    | ok st => exact hpost
    | error e => exact hpost
  cases h with
  | loaded _ hload h => exact happly (hpause hw hload) h
  | rejected _ hload => exact hpause hw hload
  | reconfigured h => exact happly hw h
  | unnamed => exact hw
  | linked _ hup hnow hexec _ _ =>
    exact (hpause (hw.watch (c := .net (.carrierUp _)) trivial hup) hnow).tickCarrier hexec
  | unlinked _ hdown hnow _ =>
    exact hpause (hw.watch (c := .net (.carrierUp _)) trivial hdown) hnow
  | reselected _ hdown hnow _ h =>
    exact happly (hpause (hw.watch (c := .net (.carrierUp _)) trivial hdown) hnow) h

/-- **In every run** the interfaces but the one chosen last are down and unaddressed. -/
theorem sealed_run (hF : ∀ c, F c → ¬ c.isolates)
    (hU : flushes → ∀ i n, ¬ U (.flushAddr i) n) (hD : ∀ s t, D s t → t.1 = s.1)
    {w₀ : Net × γ} (hlist : w₀.1.listError = none) {h : List (Record _)}
    (hrun : Run (liveLog (ctlEnv (Net.slack F U) G) D) (w₀, []) h (m, w)) :
    Sealed flushes w.1.1 w.2 := by
  have hpause : ∀ {v v' : (Net × γ) × Log CtlSig (Net × γ)}, Sealed flushes v.1.1 v.2 →
      D v.1 v'.1 ∧ v'.2 = v.2 → Sealed flushes v'.1.1 v'.2 := by
    rintro v v' hv ⟨hdrift, hlog⟩
    rw [hD _ _ hdrift, hlog]
    exact hv
  refine hrun.invariant (I := fun _ w => Sealed flushes w.1.1 w.2) ?_ ?_ ?_ ?_
  · intro cfg w₁ out w₂ hload _ happly
    have hstart : Sealed flushes w₁.1.1 w₁.2 := hpause (sealed_nil hlist) hload
    have hpost := wpE_iff.mp (wpE_applyWith_sealed hF hU cfg hstart) out w₂ happly
    cases out with
    | ok st => exact hpost
    | error e => exact hpost
  · exact fun m v v' hv hpaused => hpause hv hpaused.drift
  · exact fun m v t hv => hv
  · exact fun m v k l m' v' _ hv hstep => hv.step hF hU hD hstep

end Run
end Sealed

/-! ## Runs on the machine -/

section Live
variable {isNet : List Char → Bool} {fails : Cmd → Prop} {D : DataDir} {G : Env GwSig γ}

/-- Micronet's own calls apart, nothing that it looks at changes but the carriers and the
DHCP server. -/
def LeftAlone (s t : Kernel × γ) : Prop := s.1.Same t.1

/-- The outside of the daemon that runs on a machine. -/
def liveOutside (isNet : List Char → Bool) (D : DataDir) (fails : Cmd → Prop) (G : Env GwSig γ) :
    Env ExtSig (Kernel × γ) :=
  liveExt (ctlEnv (liveEnv isNet D fails) G) LeftAlone

/-- The outside of the daemon on the abstract network. -/
def netOutside (fails : Cmd → Prop) (G : Env GwSig γ) : Env ExtSig ((Net × Routes) × γ) :=
  liveExt (ctlEnv (Net.routedSlack (NetCall.MayFail fails) (NetCall.Vain fails)) G)
    fun s t => t.1 = s.1

/-- The network shows the machine beside the same server. -/
def ShowsAll (D : DataDir) (s : Kernel × γ) (x : (Net × Routes) × γ) : Prop :=
  s.1.Shows D x.1 ∧ s.2 = x.2

theorem leftAlone_matched {s t : Kernel × γ} {x : (Net × Routes) × γ} (hs : ShowsAll D s x)
    (h : LeftAlone s t) : ∃ y : (Net × Routes) × γ, y.1 = x.1 ∧ ShowsAll D t y :=
  ⟨(x.1, t.2), rfl, hs.1.same h, rfl⟩

/-- **Runs on the machine are runs on the network** that it shows: the same steps with the same
calls and answers, and the same memory throughout.  Any commands may fail (`fails`); the abstract
call then fails, or does nothing where its error is dropped or not looked at (`NetCall.Vain`).
The machine is legal at the start (`hlegal`), a prefix as it is printed parses (`hnet`), the
server is free (`G`), and between the daemon's calls the machine is left alone (`LeftAlone`). -/
theorem live_run_refines (isNet : List Char → Bool)
    (hnet : ∀ n : Ipv4Net, isNet n.display.toList = true) (D : DataDir) (fails : Cmd → Prop)
    (G : Env GwSig γ) {w₀ : Kernel × γ} (hlegal : w₀.1.Legal) {h : List (Record (Kernel × γ))}
    {s : Mem × Kernel × γ} (hrun : Run (liveOutside isNet D fails G) w₀ h s) :
    ∃ h' x, Run (netOutside fails G) (w₀.1.net D, w₀.2) h' x ∧ Abreast (ShowsAll D) s x ∧
      List.Forall₂ (Record.Matches (ShowsAll D)) h h' := by
  have hsim := simulates_outside (simulates_beside (liveNet_simulates isNet hnet D fails) (.refl G))
    fun s t x hs => leftAlone_matched (D := D) (s := s) (t := t) (x := x) hs
  exact Run.simulated hsim ⟨Kernel.shows_net hlegal, rfl⟩ hrun

/-- The network without its routes. -/
theorem routed_simulates (F : NetCall → Prop) (U : NetCall → Net → Prop) :
    Simulates (Net.routedSlack F U) (Net.slack F U) fun x n => n = x.1 := by
  rintro c s r t _ rfl hop
  refine ⟨t.1, ?_, rfl⟩
  rcases hop with (⟨hnet, -⟩ | ⟨hc, hr, rfl⟩) | ⟨hc, hvain, hr, rfl⟩
  · exact Or.inl (Or.inl hnet)
  · exact Or.inl (Or.inr ⟨hc, hr, rfl⟩)
  · exact Or.inr ⟨hc, hvain, hr, rfl⟩

theorem resolved_matches {R : σ → τ → Prop} {e : Event CtlSig σ} {e' : Event CtlSig τ}
    (h : Event.Matches R e e') : Event.resolved e = Event.resolved e' := by
  obtain ⟨op, pre, r⟩ := e
  obtain ⟨op', pre', r'⟩ := e'
  obtain ⟨rfl, hret, -⟩ := h
  obtain rfl := eq_of_heq hret
  cases op' with
  | gw c => rfl
  | net c =>
    cases c <;> try rfl
    cases r' <;> rfl

/-- What isolation needs cannot fail. -/
theorem mayFail_not_isolates (hfails : ∀ i, ¬ fails (.linkSet i false)) (c : NetCall)
    (hc : NetCall.MayFail fails c) : ¬ c.isolates := by
  cases c <;> first | exact hc.elim | exact absurd hc (hfails _) | exact Bool.false_ne_true

/-- What isolation on the network says of the devices. -/
theorem Kernel.Shows.isolated {s : Kernel} {x : Net × Routes} {k : String} {flushes : Prop}
    (hx : s.Shows D x) (h : Isolated flushes x.1.ethernets k x.1) {i : String} {d : Device}
    (hd : s.cls.device i = some d) (hphysical : d.Physical) (hi : i ≠ k) :
    d.flags.toNat.testBit 0 = false ∧ (flushes → s.addrs i = []) := by
  have hmem : i ∈ x.1.ethernets := by
    rw [hx.ethernets, NetClass.mem_listEthernet]
    exact ⟨d, hd, hphysical⟩
  obtain ⟨hdown, haddrs⟩ := h i hmem hi
  rw [hx.up] at hdown
  refine ⟨?_, fun h => (hx.addrs i).symm.trans (haddrs h)⟩
  by_contra hup
  rw [Bool.not_eq_false] at hup
  have hread : s.up i = true := NetClass.linkIsUpSys_iff.mpr ⟨d, hd, hup⟩
  exact Bool.false_ne_true (hdown.symm.trans hread)

/-- **At most one interface is up.**  As long as `/sys/class/net` can be read (`hdir`) and no `ip
link set down` fails (`hfails`), in every run every physical Ethernet but the one that was
resolved last is down, whatever else fails and whatever the DHCP server does.  It has no address
either if no `ip addr flush` fails: that error is dropped.  The machine is legal at the start and
left alone between the calls, as in `live_run_refines`. -/
theorem live_isolated (isNet : List Char → Bool)
    (hnet : ∀ n : Ipv4Net, isNet n.display.toList = true) (D : DataDir) (fails : Cmd → Prop)
    (hfails : ∀ i, ¬ fails (.linkSet i false)) (G : Env GwSig γ) {w₀ : Kernel × γ}
    (hlegal : w₀.1.Legal) (hdir : w₀.1.dirError = none)
    {h : List (Record ((Kernel × γ) × Log CtlSig (Kernel × γ)))} {m : Mem} {w : Kernel × γ}
    {l : Log CtlSig (Kernel × γ)}
    (hrun : Run (liveLog (ctlEnv (liveEnv isNet D fails) G) LeftAlone) (w₀, []) h (m, w, l))
    {k : String} (hk : lastResolved l = some k) {i : String} {d : Device}
    (hd : w.1.cls.device i = some d) (hphysical : d.Physical) (hi : i ≠ k) :
    d.flags.toNat.testBit 0 = false ∧
      ((∀ j, ¬ fails (.addrFlush j)) → w.1.addrs i = []) := by
  have hsim := simulates_log (D := LeftAlone) (K := fun s t : Net × γ => t.1 = s.1)
    (simulates_beside ((liveNet_simulates isNet hnet D fails).trans (routed_simulates _ _))
      (.refl G))
    (by
      rintro s t ⟨n, g⟩ ⟨⟨x, hx, rfl⟩, hg⟩ hst
      exact ⟨(x.1, t.2), rfl, ⟨x, hx.same hst, rfl⟩, rfl⟩)
  obtain ⟨h', ⟨m', ⟨n, g⟩, l'⟩, hrun', ⟨-, ⟨⟨x, hx, rfl⟩, -⟩, hl⟩, -⟩ :=
    Run.simulated hsim (z := (((w₀.1.net D).1, w₀.2), []))
      ⟨⟨⟨_, Kernel.shows_net hlegal, rfl⟩, rfl⟩, .nil⟩ hrun
  have hsealed := sealed_run (mayFail_not_isolates hfails)
    (fun (h : ∀ j, ¬ fails (.addrFlush j)) j _ => h j) (fun _ _ h => h) hdir hrun'
  have hk' : lastResolved l' = some k := (lastOf_eq_of_matches (fun _ _ => resolved_matches)
    hl).symm.trans hk
  exact hx.isolated (hsealed.2 k hk') hd hphysical hi

end Live

/-! ## A run -/

namespace Device

/-- Set up or down. -/
def setUp (b : Bool) (d : Device) : Device :=
  { d with flags := if b then d.flags ||| 1 else d.flags &&& 0xfffffffe }

theorem setUp_flags (b : Bool) (d : Device) : (d.setUp b).flags.toNat.testBit 0 = b ∧
    (d.setUp b).flags.toNat.testBit 3 = d.flags.toNat.testBit 3 := by
  have hmask : (0xfffffffe : UInt32).toNat.testBit 0 = false ∧
      (0xfffffffe : UInt32).toNat.testBit 3 = true := by decide
  have hone : (1 : UInt32).toNat.testBit 0 = true ∧ (1 : UInt32).toNat.testBit 3 = false := by
    decide
  cases b with
  | true => simp only [setUp, if_true, UInt32.toNat_or, Nat.testBit_or, hone, Bool.or_true,
      Bool.or_false, and_self]
  | false => simp only [setUp, Bool.false_eq_true, if_false, UInt32.toNat_and, Nat.testBit_and,
      hmask, Bool.and_true, Bool.and_false, and_self]

theorem alike_setUp (b : Bool) (d : Device) : d.Alike (d.setUp b) :=
  ⟨rfl, rfl, rfl, rfl, (d.setUp_flags b).2⟩

end Device

namespace Kernel

/-- The device is set down, and the routes through it are gone. -/
def setDown (i : String) (s : Kernel) : Kernel :=
  { s with
    cls := { s.cls with
      device := fun j => (s.cls.device j).map fun d => if j = i then d.setUp false else d
      complete := fun j hj => s.cls.complete j (by simpa using hj) }
    routes := s.routes.flush i }

theorem steady_setDown (i : String) (s : Kernel) : s.Steady (s.setDown i) := by
  refine ⟨rfl, rfl, fun j => ?_⟩
  show Option.Rel _ (s.cls.device j) ((s.cls.device j).map _)
  cases s.cls.device j with
  | none => exact .none
  | some d =>
    refine .some ?_
    by_cases hj : j = i
    · simpa only [if_pos hj] using d.alike_setUp false
    · simpa only [if_neg hj] using ⟨rfl, rfl, rfl, rfl, rfl⟩

theorem up_setDown (i : String) (s : Kernel) :
    (s.setDown i).up = Function.update s.up i false := by
  funext j
  rw [Bool.eq_iff_iff, up, NetClass.linkIsUpSys_iff]
  show (∃ d, (s.cls.device j).map _ = some d ∧ _) ↔ _
  by_cases hj : j = i
  · subst hj
    rw [Function.update_self]
    constructor
    · rintro ⟨_, hd, hup⟩
      obtain ⟨d, -, rfl⟩ := Option.map_eq_some_iff.mp hd
      rw [if_pos rfl, (d.setUp_flags false).1] at hup
      exact hup
    · exact fun h => (Bool.false_ne_true h).elim
  · rw [Function.update_of_ne hj, up, NetClass.linkIsUpSys_iff]
    simp [hj]

/-- The commands of isolation. -/
def tryRun (bin : String) (args : List String) (s : Kernel) :
    Option (Except Error Unit × Kernel) :=
  match args with
  | [_, _, _, i] =>
    if (Cmd.addrFlush i).argv = (bin, args) then
      some (.ok (), { s with
        addrs := Function.update s.addrs i []
        routes := s.routes.flush i })
    else none
  | [_, _, _, i, _] =>
    if (Cmd.linkSet i false).argv = (bin, args) ∧ (s.cls.device i).isSome then
      some (.ok (), s.setDown i)
    else none
  | _ => none

/-- The addresses of an interface that has none. -/
def tryOutput (bin : String) (args : List String) (s : Kernel) : Option (Option (List Char)) :=
  match args with
  | [_, _, _, _, _, i] =>
    if (Query.addrShowDev i).argv = (bin, args) ∧ s.addrs i = [] then some (some (listing []))
    else none
  | _ => none

/-- What the functions of `pidfile` leave of the pidfile at `path` and of the processes. -/
def withPid (path : String) (p : PidTable (List UInt8)) (s : Kernel) : Kernel :=
  { s with pidfiles := Function.update s.pidfiles path p.pidfile, procs := p.procs }

/-- The machine, as far as it is tried: what isolation reads and does. -/
def trial : Trial HostSig Kernel
  | .readDir, s => some (s.listed s.cls.entries, s)
  | .readSys i, s => some (s.cls.sysfs i, s)
  | .pid path c, s =>
    let x := PidTable.respond id c (s.tables.pidTable path)
    some (x.1, s.withPid path x.2)
  | .now, s => some (0, s)
  | .run bin args, s => tryRun bin args s
  | .output bin args, s => (tryOutput bin args s).map fun r => (r, s)
  | _, _ => none

theorem trial_follows (w : Weather) : trial.Follows (hostEnv w) := by
  intro c s r t h
  cases c with
  | readDir =>
    cases h
    exact ⟨.refl s, _, ⟨rfl, rfl⟩, .refl _⟩
  | readSys i =>
    cases h
    exact ⟨.refl s, _, ⟨rfl, rfl⟩, .refl _⟩
  | pid path c =>
    cases h
    refine ⟨⟨rfl, rfl, (Steady.refl s).device⟩, _, ⟨_, ?_, rfl⟩, .refl _⟩
    exact PidTable.effect_respond id c (s.tables.pidTable path)
  | now =>
    cases h
    exact ⟨.refl s, _, rfl, .refl _⟩
  | run bin args =>
    change tryRun bin args s = some (r, t) at h
    unfold tryRun at h
    split at h
    · obtain ⟨hargv, h⟩ := Option.ite_none_right_eq_some.mp h
      cases h
      exact ⟨⟨rfl, rfl, (Steady.refl s).device⟩, _, ⟨_, hargv, Or.inl rfl⟩, .refl _⟩
    · obtain ⟨⟨hargv, hdev⟩, h⟩ := Option.ite_none_right_eq_some.mp h
      cases h
      refine ⟨steady_setDown _ s, _, ⟨_, hargv, Or.inl ⟨rfl, hdev, rfl⟩⟩, ?_⟩
      exact ⟨up_setDown _ s, rfl, rfl, rfl, rfl⟩
    · cases h
  | output bin args =>
    obtain ⟨out, hout, h⟩ := Option.map_eq_some_iff.mp h
    cases h
    unfold tryOutput at hout
    split at hout
    · obtain ⟨⟨hargv, haddrs⟩, hout⟩ := Option.ite_none_right_eq_some.mp hout
      cases hout
      exact ⟨.refl s, _, ⟨⟨_, hargv, [], by simp, haddrs.symm, rfl⟩, rfl⟩, .refl _⟩
    · cases hout
  | _ => cases h

end Kernel

section Trials

/-- The two traits, where the calls of `LiveNet` are tried on the machine. -/
def ctlTrial (isNet : List Char → Bool) (D : DataDir) (HG : Handler GwSig γ) :
    Trial CtlSig (Kernel × γ)
  | .net c, s =>
    ((LiveNet.method isNet D c).attempted Kernel.trial s.1).map fun x => (x.1, x.2, s.2)
  | .gw c, s => some ((HG c s.2).1, s.1, (HG c s.2).2)

theorem ctlTrial_follows {isNet : List Char → Bool} {D : DataDir} {fails : Cmd → Prop}
    {HG : Handler GwSig γ} {G : Env GwSig γ} (hG : HG.Implements G) :
    (ctlTrial isNet D HG).Follows (ctlEnv (liveEnv isNet D fails) G) := by
  rintro (c | c) s r t h
  · obtain ⟨⟨_, _⟩, hc, h⟩ := Option.map_eq_some_iff.mp h
    cases h
    exact ⟨(Kernel.trial_follows _).exec hc, rfl⟩
  · cases h
    exact ⟨hG c s.2, rfl⟩

/-- The outside of the daemon, where one configuration is read and time stands still. -/
def extTrial (H : Trial CtlSig σ) (cfg : Config) : Trial ExtSig σ
  | .apply cfg, s => (applyWith cfg).run.attempted H s
  | .ctl c, s => H c s
  | .loadJson, s | .loadOrCreateJson, s => some (.ok cfg, s)
  | .now, s => some ((0 : Nat), s)
  | .serve, s | .spawnWatch, s | .installSignals, s => some (.ok (), s)
  | _, _ => none

theorem extTrial_follows {H : Trial CtlSig σ} {W : Env CtlSig σ} (hH : H.Follows W)
    {D : σ → σ → Prop} (hD : ∀ s, D s s) (cfg : Config) :
    (extTrial H cfg).Follows (liveExt W D) := by
  intro c s r t h
  cases c with
  | apply cfg => exact hH.exec h
  | ctl c => exact hH c s r t h
  | loadJson | loadOrCreateJson | now | serve | spawnWatch | installSignals =>
    cases h
    exact hD _
  | _ => cases h

def daemonTrial (T : Trial ExtSig ω) : Trial DaemonSig (Mem × ω)
  | .mem f, s => some (s.1, f s.1, s.2)
  | .ext c, s => (T c s.2).map fun x => (x.1, s.1, x.2)

theorem daemonTrial_follows {T : Trial ExtSig ω} {X : Env ExtSig ω} (hT : T.Follows X) :
    (daemonTrial T).Follows (daemonEnv X) := by
  rintro (f | c) s r t h
  · cases h
    exact ⟨rfl, rfl⟩
  · obtain ⟨⟨_, _⟩, hc, h⟩ := Option.map_eq_some_iff.mp h
    cases h
    exact ⟨hT _ _ _ _ hc, rfl⟩

/-- The start, and the steps of `ks` after it, as far as they are computed. -/
def tried (T : Trial ExtSig ω) (w₀ : ω) : List StepKind → Option (List (Record ω) × Mem × ω)
  | [] => do
    let x ← start.run.attempted (daemonTrial T) (.new {} .empty, w₀)
    if isErr x.1 then none else some ([], x.2)
  | k :: ks => do
    let x ← tried T w₀ ks
    let y ← k.prog.attempted (daemonTrial T.logged) (x.2.1, x.2.2, [])
    return (x.1 ++ [⟨k, x.2, y.2.2.2, y.2.1, y.2.2.1⟩], y.2.1, y.2.2.1)

/-- **What is computed is a run**; the steps are the last first. -/
theorem run_tried {T : Trial ExtSig ω} {X : Env ExtSig ω} (hT : T.Follows X) {w₀ : ω}
    {ks : List StepKind} {h : List (Record ω)} {s : Mem × ω} (hs : tried T w₀ ks = some (h, s)) :
    Run X w₀ h s := by
  induction ks generalizing h s with
  | nil =>
    obtain ⟨⟨r, t⟩, hstart, hs⟩ := Option.bind_eq_some_iff.mp hs
    cases r with
    | ok _ =>
      cases hs
      exact .start ((daemonTrial_follows hT).exec hstart)
    | error e => cases hs
  | cons k ks ih =>
    obtain ⟨⟨h', m, w⟩, hrun, hs⟩ := Option.bind_eq_some_iff.mp hs
    obtain ⟨⟨_, m', w', l⟩, hstep, hs⟩ := Option.bind_eq_some_iff.mp hs
    cases hs
    exact (ih hrun).step k ((daemonTrial_follows hT.logged).exec hstep)

theorem exists_tried {T : Trial ExtSig ω} {X : Env ExtSig ω} (hT : T.Follows X) (w₀ : ω)
    (ks : List StepKind) (p : List (Record ω) × Mem × ω → Bool)
    (h : (tried T w₀ ks).any p = true) : ∃ h s, Run X w₀ h s ∧ p (h, s) = true := by
  obtain ⟨⟨h, s⟩, hs, hp⟩ := (Option.any_eq_true _ _).mp h
  exact ⟨h, s, run_tried hT hs, hp⟩

end Trials

/-- An Ethernet that is up, with a carrier or without. -/
def port (carrier : Bool) : Device where
  kind := 1
  flags := 0x1003
  wireless := false
  bridge := false
  path := ["sys".toList, "devices".toList, "net".toList]
  path_sep := by decide
  carrier := some carrier
  mac := #v[2, 0, 0, 0, 0, 1]

/-- Two interfaces that are up; the one without a carrier has an address, and a dhclient. -/
def twoPorts : Kernel where
  cls :=
    { entries := ["eth0", "eth1"]
      device := fun i => if i = "eth0" then some (port true) else
        if i = "eth1" then some (port false) else none
      nodup := by decide
      complete := fun i h => by
        by_contra hi
        simp only [List.mem_cons, List.not_mem_nil, or_false, not_or] at hi
        simp [hi] at h
      legal := by decide }
  addrs := fun i => if i = "eth1" then [.slash24 ⟨10, 0, 1, 5⟩] else []
  routes := []
  pidfiles := fun path =>
    if path = "/data/run/dhclient.eth1.pid" then some (.text "812\n") else none
  procs := fun pid =>
    if pid = 812 then some (PidHost.cmdlineOf [dhclientBin, "-nw", "eth1"]) else none

theorem twoPorts_legal : twoPorts.Legal := by
  have hdev : ∀ i, twoPorts.Dev i → i = "eth0" ∨ i = "eth1" := fun i hi => by
    have hmem : i ∈ ["eth0", "eth1"] := twoPorts.cls.complete i hi
    simpa using hmem
  refine ⟨fun i hi => ?_, fun i n hn => ?_, fun p q hne hp hq => ?_⟩
  · rcases hdev i hi with rfl | rfl
    · exact ⟨⟨"eth0".toList, by decide, by decide, by simp, by decide⟩, rfl, by decide⟩
    · exact ⟨⟨"eth1".toList, by decide, by decide, by simp, by decide⟩, rfl, by decide⟩
  · by_cases hi : i = "eth1"
    · subst hi
      rfl
    · rw [show twoPorts.addrs i = [] from if_neg hi] at hn
      cases hn
  · have hpidfile : ∀ path, twoPorts.tables.dhclient path = true →
        path = "/data/run/dhclient.eth1.pid" := by
      intro path h
      by_contra hpath
      have hnone : twoPorts.pidfiles path = none := if_neg hpath
      rw [Tables.dhclient, PidTable.alive_of_none _ hnone] at h
      cases h
    exact absurd ((hpidfile p hp).trans (hpidfile q hq).symm) hne

def twoPortsDir : DataDir := ⟨"/data/run", "/data/etc"⟩

/-- No probe can be sent. -/
def twoPortsCtl : Trial CtlSig (Kernel × Bool) :=
  ctlTrial Ipv4Net.isDisplay twoPortsDir (Dnsmasq.handler (.error (.other "no socket")))

theorem twoPortsCtl_follows : twoPortsCtl.Follows
    (ctlEnv (liveEnv Ipv4Net.isDisplay twoPortsDir fun _ => False) Dnsmasq.env) :=
  ctlTrial_follows (Dnsmasq.handler_implements _)

/-- It is reconfigured once: the same calls with the same answers as on the network. -/
theorem twoPorts_refines : ∃ h s h' x, h.length = 1 ∧
    Run (liveOutside Ipv4Net.isDisplay twoPortsDir (fun _ => False) Dnsmasq.env)
      (twoPorts, false) h s ∧
    Run (netOutside (fun _ => False) Dnsmasq.env) (twoPorts.net twoPortsDir, false) h' x ∧
    Abreast (ShowsAll twoPortsDir) s x ∧
    List.Forall₂ (Record.Matches (ShowsAll twoPortsDir)) h h' := by
  obtain ⟨h, s, hrun, hh⟩ := exists_tried (extTrial_follows twoPortsCtl_follows (D := LeftAlone)
    (fun s => .refl _) {}) (twoPorts, false) [.reconfigure] (fun x => decide (x.1.length = 1))
    (by decide +kernel)
  obtain ⟨h', x, hrun', hs, hmatch⟩ := live_run_refines Ipv4Net.isDisplay Ipv4Net.isDisplay_display
    twoPortsDir (fun _ => False) Dnsmasq.env twoPorts_legal hrun
  exact ⟨h, s, h', x, of_decide_eq_true hh, hrun, hrun', hs, hmatch⟩

/-- The interface without a carrier is taken down before the probe. -/
theorem twoPorts_isolated : ∃ (h : List (Record ((Kernel × Bool) × Log CtlSig (Kernel × Bool))))
    (m : Mem) (w : Kernel × Bool) (l : Log CtlSig (Kernel × Bool)) (d : Device), h.length = 1 ∧
      Run (liveLog (ctlEnv (liveEnv Ipv4Net.isDisplay twoPortsDir fun _ => False) Dnsmasq.env)
        LeftAlone) ((twoPorts, false), []) h (m, w, l) ∧
      w.1.cls.device "eth1" = some d ∧ d.flags.toNat.testBit 0 = false ∧
        w.1.addrs "eth1" = [] := by
  obtain ⟨h, ⟨m, w, l⟩, hrun, hp⟩ := exists_tried (extTrial_follows twoPortsCtl_follows.logged
    (D := fun s t => LeftAlone s.1 t.1 ∧ t.2 = s.2) (fun s => ⟨.refl _, rfl⟩) {})
    ((twoPorts, false), []) [.reconfigure] (fun x => decide (x.1.length = 1) &&
      decide (lastResolved x.2.2.2 = some "eth0") &&
      isPhysicalEthernet x.2.2.1.1.cls.sysfs "eth1") (by decide +kernel)
  simp only [Bool.and_eq_true, decide_eq_true_iff, NetClass.isPhysicalEthernet_iff] at hp
  obtain ⟨⟨hh, hk⟩, d, hd, hphysical⟩ := hp
  obtain ⟨hdown, haddrs⟩ := live_isolated Ipv4Net.isDisplay Ipv4Net.isDisplay_display twoPortsDir
    (fun _ => False) (fun _ h => h) Dnsmasq.env twoPorts_legal rfl hrun hk hd hphysical (by decide)
  exact ⟨h, m, w, l, d, hh, hrun, hd, hdown, haddrs fun _ h => h⟩

end Micronet
