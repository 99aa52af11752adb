import Micronet.Machine
import Micronet.Resolution

/-!
# Links that come up late

An interface shows carrier only while it is admin-up with a link at the other end of its
cable, and it may begin to at any time; once it shows one it keeps it as long as it is
up (`Wired`).  Here the active pick of a resolution is what the passive one finds
afterwards, once the other interfaces are down (`Wired.wpE_resolveAuto_none`).
-/
namespace Micronet
open Interaction Prog Net

/-- A network with what its interfaces show of their cables. -/
structure Wired (cable : String → Bool) where
  net : Net
  /-- What `/sys/class/net/<iface>/carrier` says. -/
  shows : String → Bool
  /-- What is down or has no link shows no carrier. -/
  lit : ∀ i, shows i = true → net.up i = true ∧ cable i = true

/-- The carrier that is read. -/
def SysCall.Reads (shows : String → Bool) : (c : SysCall) → c.Ret → Prop
  | .carrierUpSys name, r => r = shows name
  | _, _ => True

/-- The carrier that is read. -/
def NetCall.Reads (shows : String → Bool) : (c : NetCall) → c.Ret → Prop
  | .carrierUp i, r => r = shows i
  | _, _ => True

namespace Wired
variable {cable : String → Bool}

/-- A carrier stays while its interface is up; others may have come. -/
def Steady (s t : Wired cable) : Prop :=
  ∀ i, s.shows i = true → t.net.up i = true → t.shows i = true

def sysEnv : Env SysSig (Wired cable) :=
  fun c s r t => Net.sysEnv c s.net r t.net ∧ c.Reads t.shows r ∧ s.Steady t

/-- The calls of `F` may fail. -/
def env (F : NetCall → Prop) : Env NetSig (Wired cable)
  | .resolveIface c, s, r, t => (LiveNet.resolveIface c).run.Exec sysEnv s r t
  | .resolveIfacePassive c, s, r, t => (LiveNet.resolveIfacePassive c).run.Exec sysEnv s r t
  | c, s, r, t => Net.env F c s.net r t.net ∧ c.Reads t.shows r ∧ s.Steady t

theorem exec_net {α : Type} {p : Prog SysSig α} {s t : Wired cable} {a : α}
    (h : p.Exec sysEnv s a t) : p.Exec Net.sysEnv s.net a t.net :=
  h.map (f := Wired.net) fun _ _ _ _ h => h.1

/-- The carriers forgotten. -/
theorem env_net {F : NetCall → Prop} {c : NetCall} {s t : Wired cable} {r : c.Ret}
    (h : env F c s r t) : Net.env F c s.net r t.net := by
  cases c with
  | resolveIface c => exact Or.inl (exec_net h)
  | resolveIfacePassive c => exact Or.inl (exec_net h)
  | _ => exact h.1

/-! ## Reading the carriers -/

/-- The links are those of `s`, and no carrier of it is gone. -/
def Later (s t : Wired cable) : Prop :=
  t.net = s.net ∧ ∀ i, s.shows i = true → t.shows i = true

theorem Later.refl (s : Wired cable) : s.Later s := ⟨rfl, fun _ h => h⟩

theorem Later.trans {s t u : Wired cable} (h : s.Later t) (h' : t.Later u) : s.Later u :=
  ⟨h'.1.trans h.1, fun i hi => h'.2 i (h.2 i hi)⟩

theorem later_of_steady {s t : Wired cable} (hnet : t.net = s.net) (h : s.Steady t) : s.Later t :=
  ⟨hnet, fun i hi => h i hi (hnet ▸ (s.lit i hi).1)⟩

/-- A call that is not to set an interface up. -/
def Looks : SysCall → Prop
  | .ipLinkSetUp _ => False
  | _ => True

theorem later_of_looks {c : SysCall} {s t : Wired cable} {r : c.Ret} (hc : Looks c)
    (h : sysEnv c s r t) : s.Later t := by
  refine later_of_steady ?_ h.2.2
  cases c with
  | ipLinkSetUp name => exact hc.elim
  | listPhysicalEthernet => exact h.1.2
  | isPhysicalEthernet name => exact h.1.2
  | linkIsUpSys name => exact h.1.2
  | carrierUpSys name => exact h.1
  | now => exact h.1
  | sleep d => exact h.1

/-- **A scan** finds a name that shows carrier, or none showed one when it began. -/
theorem wp_findCarrier {names : List String} {s : Wired cable} :
    wp sysEnv (LiveNet.findCarrier names) (fun r t => s.Later t ∧ match r with
      | some k => k ∈ names ∧ t.shows k = true
      | none => ∀ i ∈ names, s.shows i = false) s := by
  induction names generalizing s with
  | nil => exact ⟨.refl s, by simp⟩
  | cons name names ih =>
    unfold LiveNet.findCarrier
    rw [wp_bind, wp_op]
    intro r t h
    have hlater := later_of_looks (c := .carrierUpSys name) trivial h
    have hr : r = t.shows name := h.2.1
    rw [wp_ret, wp_ite]
    refine ⟨fun hshown => ?_, fun hdark => ?_⟩
    · exact ⟨hlater, List.mem_cons_self, hr ▸ hshown⟩
    · refine wp_mono ih ?_
      rintro found u ⟨hu, hfound⟩
      refine ⟨hlater.trans hu, ?_⟩
      cases found with
      | some k => exact ⟨List.mem_cons_of_mem _ hfound.1, hfound.2⟩
      | none =>
        have hback : ∀ i, t.shows i = false → s.shows i = false := fun i hi =>
          Bool.eq_false_iff.mpr fun hs => Bool.eq_false_iff.mp hi (hlater.2 i hs)
        intro i hi
        rcases List.mem_cons.mp hi with rfl | hi
        · exact hback i (by simpa [hr] using hdark)
        · exact hback i (hfound i hi)

/-- A poll ends in nothing, or with a carrier that is there. -/
theorem wp_pollCarrier {names : List String} {deadline rounds : Nat} {s : Wired cable} :
    wp sysEnv (LiveNet.pollCarrier names deadline rounds)
      (fun r t => s.Later t ∧ ∀ k, r = some k → k ∈ names ∧ t.shows k = true) s := by
  induction rounds generalizing s with
  | zero => exact ⟨.refl s, by simp⟩
  | succ rounds ih =>
    unfold LiveNet.pollCarrier
    rw [wp_bind]
    refine wp_mono wp_findCarrier ?_
    rintro found t ⟨ht, hfound⟩
    cases found with
    | some k =>
      refine ⟨ht, fun k' hk => ?_⟩
      obtain rfl := Option.some.inj hk
      exact hfound
    | none =>
      simp only [wp_bind, wp_op, wp_ret, wp_ite, wp_pure]
      intro now u hnow
      have hu := ht.trans (later_of_looks (c := .now) trivial hnow)
      refine ⟨fun _ => ⟨hu, by simp⟩, fun _ v w hsleep => ?_⟩
      have hw := hu.trans (later_of_looks (c := .sleep _) trivial hsleep)
      exact wp_mono ih fun r x hx => ⟨hw.trans hx.1, hx.2⟩

/-! ## The automatic pick -/

/-- The pick is one of the names, and shows carrier or is the first of them. -/
def PickedIn (k : String) (t : Wired cable) : Prop :=
  t.net.listError = none ∧ k ∈ t.net.ethernets ∧
    (t.shows k = true ∨ t.net.ethernets.head? = some k)

section Auto
variable {b : LiveNet.LinkBringUp} {s : Wired cable} {Q : String → Wired cable → Prop}
  {R : Error → Wired cable → Prop}

/-- **The automatic pick** by cases: an error, a first carrier, or what `waitCarrier` ends
with, when no carrier was there at the begin. -/
theorem wpE_resolveAuto
    (herr : ∀ e t, s.Later t → s.net.listError ≠ none ∨ s.net.ethernets = [] → R e t)
    (hshown : ∀ k t, s.Later t → s.net.listError = none → k ∈ s.net.ethernets →
      t.shows k = true → Q k t)
    (hdark : ∀ head names t, s.Later t → s.net.ethernets = head :: names →
      s.net.listError = none → (∀ i ∈ s.net.ethernets, s.shows i = false) →
      (b = .live → wp sysEnv (LiveNet.waitCarrier s.net.ethernets)
        (fun found u => Q (found.getD head) u) t) ∧ (b ≠ .live → Q head t)) :
    wpE sysEnv (LiveNet.resolveAuto b) Q R s := by
  unfold LiveNet.resolveAuto
  rw [wpE_bind, wpE_mk, wp_op]
  intro r t hlist
  have ht := later_of_looks (c := .listPhysicalEthernet) trivial hlist
  obtain rfl : r = s.net.listing := hlist.1.1
  unfold Net.listing
  cases hfail : s.net.listError with
  | some e => exact herr e t ht (Or.inl (by simp [hfail]))
  | none =>
    show wpE sysEnv _ Q R t
    cases hnames : s.net.ethernets with
    | nil => exact herr _ t ht (Or.inr hnames)
    | cons head names =>
      show wpE sysEnv (liftM (LiveNet.findCarrier (head :: names)) >>= _) Q R t
      rw [wpE_bind, wpE_lift, ← hnames]
      refine wp_mono wp_findCarrier fun found u ⟨hu, hfound⟩ => ?_
      have hsu := ht.trans hu
      cases found with
      | some k => exact hshown k u hsu hfail hfound.1 hfound.2
      | none =>
        -- carriers only come up, so what is dark now was dark at the begin
        have hs : ∀ i ∈ s.net.ethernets, s.shows i = false := fun i hi =>
          Bool.eq_false_iff.mpr fun h => Bool.eq_false_iff.mp (hfound i hi) (ht.2 i h)
        show wpE sysEnv (_ >>= fun found : Option String => Pure.pure (found.getD head)) Q R u
        rw [wpE_bind, wpE_ite, wpE_lift, wpE_pure]
        exact hdark head names u hsu hnames hfail hs

/-- Setting the candidates up and waiting changes no listing. -/
theorem wp_waitCarrier {names : List String} :
    wp sysEnv (LiveNet.waitCarrier names) (fun r t =>
      (t.net.listError = s.net.listError ∧ t.net.ethernets = s.net.ethernets) ∧
        ∀ k, r = some k → k ∈ names ∧ t.shows k = true) s := by
  have hall : (names.forM LiveNet.setCandidateUp).Within (fun _ => True) fun _ => True :=
    within_forM names trivial fun name => by simp [LiveNet.setCandidateUp]
  unfold LiveNet.waitCarrier
  rw [wp_bind]
  refine wp_mono (wp_within (I := fun t : Wired cable =>
    t.net.listError = s.net.listError ∧ t.net.ethernets = s.net.ethernets) ?_ hall ⟨rfl, rfl⟩) ?_
  · intro c u r v _ hu h
    obtain ⟨up, hv⟩ := exec_sysEnv (exec_call.mpr h.1)
    rw [hv]
    exact hu
  · rintro _ t ⟨_, ht⟩
    rw [wp_bind, wp_op]
    intro now u hnow
    rw [wp_ret]
    refine wp_mono wp_pollCarrier ?_
    rintro r v ⟨hv, hfound⟩
    refine ⟨?_, hfound⟩
    rw [hv.1, (later_of_looks (c := .now) trivial hnow).1]
    exact ht

/-- **The active pick** shows carrier where it ends, or is the first name. -/
theorem wpE_resolveAuto_live :
    wpE sysEnv (LiveNet.resolveAuto .live) (fun k t => PickedIn k t) (fun _ _ => True) s := by
  refine wpE_resolveAuto (fun _ _ _ _ => trivial) (fun k t ht hlist hmem hk => ?_)
    fun head names t ht hnames hlist _ => ⟨fun _ => ?_, fun h => absurd rfl h⟩
  · unfold PickedIn
    rw [ht.1]
    exact ⟨hlist, hmem, Or.inl hk⟩
  · refine wp_mono wp_waitCarrier fun found u ⟨⟨herr, heth⟩, hfound⟩ => ?_
    unfold PickedIn
    rw [herr, heth, ht.1]
    refine ⟨hlist, ?_⟩
    cases found with
    | some k => exact ⟨(hfound k rfl).1, Or.inl (hfound k rfl).2⟩
    | none =>
      rw [hnames]
      exact ⟨List.mem_cons_self, Or.inr rfl⟩

/-- **The passive pick**, where every interface but `k` is down. -/
theorem wpE_resolveAuto_none {k : String} (hk : PickedIn k s)
    (hdown : ∀ i ∈ s.net.ethernets, i ≠ k → s.net.up i = false) :
    wpE sysEnv (LiveNet.resolveAuto .none) (fun i _ => i = k) (fun _ _ => False) s := by
  obtain ⟨hlist, hmem, hpick⟩ := hk
  refine wpE_resolveAuto (fun _ _ _ herr => ?_) (fun i t ht _ hi hshown => ?_)
    fun head names t ht hnames _ hdark => ⟨nofun, fun _ => ?_⟩
  · rcases herr with herr | hnil
    · exact herr hlist
    · exact List.not_mem_nil (hnil ▸ hmem)
  · -- what shows carrier is up
    by_contra hne
    have hup := (t.lit i hshown).1
    rw [ht.1, hdown i hi hne] at hup
    cases hup
  · rcases hpick with hshown | hhead
    · rw [hdark k hmem] at hshown
      cases hshown
    · rw [hnames] at hhead
      exact Option.some.inj hhead

/-- A pinned name is read from nothing but the listing. -/
theorem wpE_resolvePinned {name : String} :
    wpE sysEnv (LiveNet.resolvePinned name)
      (fun k t => k = name ∧ name ∈ s.net.ethernets ∧ s.Later t)
      (fun _ t => name ∉ s.net.ethernets ∧ s.Later t) s := by
  unfold LiveNet.resolvePinned
  rw [wpE_bind, wpE_lift, wp_op]
  intro physical t h
  have ht := later_of_looks (c := .isPhysicalEthernet name) trivial h
  obtain rfl : physical = decide (name ∈ s.net.ethernets) := h.1.1
  rw [wp_ret, wpE_ite]
  exact ⟨fun hmem => ⟨rfl, of_decide_eq_true hmem, ht⟩,
    fun hmem => ⟨fun h => hmem (decide_eq_true h), ht⟩⟩

end Auto

/-! ## When a resolution sets an interface up -/

section SetsUp
variable {configured : Option String} {s : Wired cable}

/-- Where the active resolution sets interfaces up. -/
def SetsUp (configured : Option String) (s : Wired cable) : Prop :=
  Automatic configured ∧ s.net.listError = none ∧ (∀ i ∈ s.net.ethernets, s.shows i = false) ∧
    ∃ i ∈ s.net.ethernets, s.net.up i = false

/-- Where all candidates are up, none is set up. -/
theorem wp_waitCarrier_up {names : List String} (hup : ∀ i ∈ names, s.net.up i = true) :
    wp sysEnv (LiveNet.waitCarrier names) (fun _ t => t.net = s.net) s := by
  unfold LiveNet.waitCarrier
  rw [wp_bind]
  refine wp_mono (wp_forM (I := fun rest t => t.net = s.net ∧ ∀ i ∈ rest, i ∈ names)
    ⟨rfl, fun _ h => h⟩ ?_) ?_
  · intro name rest t ht
    obtain ⟨hnet, hrest⟩ := ht
    unfold LiveNet.setCandidateUp
    rw [wp_bind, wp_op]
    intro r u hread
    obtain ⟨rfl, hu⟩ := hread.1
    rw [wp_ret, hnet, hup name (hrest name List.mem_cons_self), if_pos rfl]
    exact ⟨hu.trans hnet, fun i hi => hrest i (List.mem_cons_of_mem _ hi)⟩
  · intro _ t ht
    rw [wp_bind, wp_op]
    intro now u hnow
    rw [wp_ret]
    have hu := later_of_looks (c := .now) trivial hnow
    exact wp_mono wp_pollCarrier fun _ v hv => (hv.1.1.trans hu.1).trans ht.1

/-- **Otherwise the active resolution changes no link**, whatever it answers. -/
theorem wp_resolveIface_quiet (h : ¬ s.SetsUp configured) :
    wp sysEnv (LiveNet.resolveIface configured).run (fun _ t => t.net = s.net) s := by
  by_cases hauto : Automatic configured
  · rw [LiveNet.resolveIface, resolveIfaceWith_auto hauto]
    have hauto' : wpE sysEnv (LiveNet.resolveAuto .live) (fun _ t => t.net = s.net)
        (fun _ t => t.net = s.net) s := by
      refine wpE_resolveAuto (fun _ _ ht _ => ht.1) (fun _ _ ht _ _ _ => ht.1)
        fun head names t ht hnames hlist hdark => ⟨fun _ => ?_, fun hb => absurd rfl hb⟩
      have hup : ∀ i ∈ s.net.ethernets, t.net.up i = true := by
        intro i hi
        by_contra hdown
        rw [ht.1] at hdown
        exact h ⟨hauto, hlist, hdark, i, hi, Bool.eq_false_iff.mpr hdown⟩
      exact wp_mono (wp_waitCarrier_up hup) fun _ u hu => hu.trans ht.1
    exact wp_mono hauto' fun r t hr => by cases r <;> exact hr
  · obtain ⟨name, rfl, hname⟩ := pinned_of_not_automatic hauto
    rw [LiveNet.resolveIface, resolveIfaceWith_pinned hname]
    exact wp_mono wpE_resolvePinned fun r t hr => by
      cases r with
      | ok k => exact hr.2.2.1
      | error e => exact hr.2.1

/-- The machine of `s` without a link that comes up late. -/
def settled (s : Wired cable) (n : Net) : Wired cable where
  net := n
  shows i := s.shows i && n.up i
  lit i hi := by
    rw [Bool.and_eq_true] at hi
    exact ⟨hi.2, (s.lit i hi.1).2⟩

theorem settled_self (s : Wired cable) : s.settled s.net = s := by
  have hshows : (fun i => s.shows i && s.net.up i) = s.shows := by
    funext i
    cases hi : s.shows i with
    | true => simp [(s.lit i hi).1]
    | false => rfl
  obtain ⟨n, shows, lit⟩ := s
  unfold settled
  congr

/-- **There it can set every candidate up.** -/
theorem SetsUp.exec (h : s.SetsUp configured) :
    ∃ k t, (LiveNet.resolveIface configured).run.Exec sysEnv s (.ok k) t ∧
      t.net = s.net.setUpAll s.net.ethernets := by
  obtain ⟨hauto, hlist, hdark, i, hi, -⟩ := h
  let lan : Lan := { Lan.silent with carrier := fun n i => s.shows i && n.up i }
  obtain ⟨head, names, hnames⟩ := List.exists_cons_of_ne_nil (List.ne_nil_of_mem hi)
  have hrun := lan.run_resolveAuto s.net hlist hnames
  have hnone : s.net.ethernets.find? (lan.carrier s.net) = none :=
    List.find?_eq_none.mpr fun j hj => by simp [lan, hdark j hj]
  rw [hnone] at hrun
  have hexec := lan.sys.implements_graph.exec (LiveNet.resolveAuto .live).run s.net
  rw [hrun] at hexec
  have hsim := hexec.map (f := s.settled) (F := sysEnv) ?_
  · rw [settled_self] at hsim
    refine ⟨_, s.settled (s.net.setUpAll s.net.ethernets),
      (resolveIfaceWith_auto hauto ▸ hsim : (LiveNet.resolveIface configured).run.Exec _ _ _ _),
      rfl⟩
  · rintro c n _ _ ⟨rfl, rfl⟩
    refine ⟨lan.sys_implements c n, ?_, fun j hj hup => ?_⟩
    · cases c <;> first | exact rfl | exact trivial
    · simp only [settled, Bool.and_eq_true] at hj hup ⊢
      exact ⟨hj.1, hup⟩

end SetsUp

/-! ## Computing with carriers -/

/-- The carriers that are read. -/
def lan (s : Wired cable) : Lan := { Lan.silent with carrier := fun _ => s.shows }

/-- No link comes up, and every call succeeds. -/
def sysHandler : Handler SysSig (Wired cable) :=
  fun c s => ((s.lan.sys c s.net).1, s.settled (s.lan.sys c s.net).2)

theorem settled_steady (s : Wired cable) (n : Net) : s.Steady (s.settled n) :=
  fun _ hs hup => Bool.and_eq_true_iff.mpr ⟨hs, hup⟩

theorem sysHandler_implements : (@sysHandler cable).Implements sysEnv := by
  intro c s
  refine ⟨s.lan.sys_implements c s.net, ?_, s.settled_steady _⟩
  cases c with
  | carrierUpSys name => exact congrFun (congrArg Wired.shows s.settled_self.symm) name
  | _ => exact trivial

def handler : Handler NetSig (Wired cable)
  | .resolveIface c, s => (LiveNet.resolveIface c).run.run sysHandler s
  | .resolveIfacePassive c, s => (LiveNet.resolveIfacePassive c).run.run sysHandler s
  | c, s => ((s.lan.net c s.net).1, s.settled (s.lan.net c s.net).2)

theorem handler_implements (F : NetCall → Prop) :
    (@handler cable).Implements (env F) := by
  intro c s
  cases c with
  | resolveIface c => exact sysHandler_implements.exec _ _
  | resolveIfacePassive c => exact sysHandler_implements.exec _ _
  | carrierUp i =>
    exact ⟨s.lan.net_implements F (.carrierUp i) s.net,
      congrFun (congrArg Wired.shows s.settled_self.symm) i, s.settled_steady _⟩
  | _ => exact ⟨s.lan.net_implements F _ s.net, trivial, s.settled_steady _⟩

end Wired
end Micronet
