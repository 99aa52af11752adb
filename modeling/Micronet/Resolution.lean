import Mathlib.Data.List.Find
import Mathlib.Data.List.Sort
import Mathlib.Data.String.Basic
import Micronet.Network

/-!
# What a resolution reads and does

The automatic pick reads the carriers of the names in their sorted order, once or until
its deadline, and takes the first that shows one, or the first of all (`Picked`).  It
changes nothing but to set candidates up, and only when its first reads show none.
Where the carriers are a function of the links (`Lan`) it computes
(`Lan.run_resolveAuto`).
-/
namespace Micronet
open Interaction Prog Net

/-- The automatic pick is configured. -/
def Automatic (configured : Option String) : Prop :=
  configured = none ∨ configured = some LiveNet.autoIface

section Configured
variable {configured : Option String} {b : LiveNet.LinkBringUp}

theorem resolveIfaceWith_auto (h : Automatic configured) :
    LiveNet.resolveIfaceWith configured b = LiveNet.resolveAuto b := by
  rcases h with rfl | rfl
  · rfl
  · simp [LiveNet.resolveIfaceWith]

theorem resolveIfaceWith_pinned {name : String} (h : name ≠ LiveNet.autoIface) :
    LiveNet.resolveIfaceWith (some name) b = LiveNet.resolvePinned name := by
  simp [LiveNet.resolveIfaceWith, h]

theorem pinned_of_not_automatic (h : ¬ Automatic configured) :
    ∃ name, configured = some name ∧ name ≠ LiveNet.autoIface := by
  cases configured with
  | none => exact absurd (Or.inl rfl) h
  | some name => exact ⟨name, rfl, fun e => h (Or.inr (congrArg some e))⟩

end Configured

/-! ## The names, in their order -/

/-- `list_physical_ethernet`, on the entries of the directory. -/
def listPhysicalEthernet (entries : List String) (isPhysicalEthernet : String → Bool) :
    List String :=
  (entries.filter isPhysicalEthernet).insertionSort (· ≤ ·)

example : listPhysicalEthernet ["wlan0", "eth1", "eth0"] (· ≠ "wlan0") = ["eth0", "eth1"] := by
  decide

section Listing
variable {entries : List String} {isPhysicalEthernet : String → Bool}

theorem listPhysicalEthernet_sorted :
    (listPhysicalEthernet entries isPhysicalEthernet).Pairwise (· ≤ ·) :=
  List.pairwise_insertionSort _ _

theorem mem_listPhysicalEthernet {i : String} :
    i ∈ listPhysicalEthernet entries isPhysicalEthernet ↔
      i ∈ entries ∧ isPhysicalEthernet i = true :=
  (List.mem_insertionSort _).trans List.mem_filter

end Listing

/-! ## The reads of the automatic pick -/

section Reads
variable {σ : Type} {E : Env SysSig σ} {names : List String} {s : σ} {l : Log SysSig σ}

/-- A carrier that was read, with what it showed. -/
def Event.carrierRead : Event SysSig σ → Option (String × Bool)
  | ⟨.carrierUpSys name, _, r⟩ => some (name, r)
  | _ => none

def carrierReads (l : Log SysSig σ) : List (String × Bool) := l.filterMap Event.carrierRead

@[simp] theorem carrierReads_nil : carrierReads ([] : Log SysSig σ) = [] := rfl

@[simp] theorem carrierReads_append (l m : Log SysSig σ) :
    carrierReads (l ++ m) = carrierReads l ++ carrierReads m := List.filterMap_append

/-- One scan of the names in their order: it ends at the first that shows carrier. -/
def Scanned (names : List String) (reads : List (String × Bool)) : Option String → Prop
  | some k => ∃ before after, names = before ++ k :: after ∧
      reads = before.map (·, false) ++ [(k, true)]
  | none => reads = names.map (·, false)

/-- Scans of the names: all but the last found nothing. -/
def Polled (names : List String) (reads : List (String × Bool)) : Option String → Prop
  | some k => ∃ earlier last, reads = earlier ++ last ∧ (∀ x ∈ earlier, x.2 = false) ∧
      Scanned names last (some k)
  | none => ∀ x ∈ reads, x.2 = false

/-- **The automatic pick** is the first name in order that showed carrier when it was read,
or the first of all names if none did. -/
def Picked (names : List String) (reads : List (String × Bool)) (k : String) : Prop :=
  Polled names reads (some k) ∨ Polled names reads none ∧ names.head? = some k

theorem Scanned.polled {reads : List (String × Bool)} {r : Option String}
    (h : Scanned names reads r) : Polled names reads r := by
  cases r with
  | some k => exact ⟨[], reads, rfl, nofun, h⟩
  | none =>
    intro x hx
    rw [(h : reads = _), List.mem_map] at hx
    obtain ⟨i, _, rfl⟩ := hx
    rfl

/-- Reads that showed nothing may come before. -/
theorem Polled.append {earlier reads : List (String × Bool)} {r : Option String}
    (hearlier : ∀ x ∈ earlier, x.2 = false) (h : Polled names reads r) :
    Polled names (earlier ++ reads) r := by
  have hall : ∀ m : List (String × Bool), (∀ x ∈ m, x.2 = false) →
      ∀ x ∈ earlier ++ m, x.2 = false := by
    intro m hm x hx
    rcases List.mem_append.mp hx with hx | hx
    · exact hearlier x hx
    · exact hm x hx
  cases r with
  | some k =>
    obtain ⟨m, last, rfl, hm, hlast⟩ := h
    exact ⟨earlier ++ m, last, (List.append_assoc ..).symm, hall m hm, hlast⟩
  | none => exact hall reads h

theorem wp_findCarrier_reads :
    wp E.logged (LiveNet.findCarrier names) (fun r t =>
      ∃ seg, t.2 = l ++ seg ∧ Scanned names (carrierReads seg) r) (s, l) := by
  induction names generalizing s l with
  | nil => exact ⟨[], (List.append_nil l).symm, rfl⟩
  | cons name names ih =>
    unfold LiveNet.findCarrier
    rw [wp_bind, wp_logged_op]
    intro r t _
    rw [wp_ret, wp_ite]
    refine ⟨fun hshown => ?_, fun hdark => ?_⟩
    · refine ⟨[⟨.carrierUpSys name, s, r⟩], rfl, [], names, rfl, ?_⟩
      change [(name, r)] = [(name, true)]
      rw [hshown]
    · refine wp_mono ih fun found u ⟨seg, hl, hscan⟩ => ?_
      refine ⟨⟨.carrierUpSys name, s, r⟩ :: seg, ?_, ?_⟩
      · rw [hl, List.append_assoc]
        rfl
      · have hr : r = false := by simpa using hdark
        have hcons : carrierReads (⟨.carrierUpSys name, s, r⟩ :: seg) =
            (name, false) :: carrierReads seg := by rw [hr]; rfl
        rw [hcons]
        cases found with
        | some k =>
          obtain ⟨before, after, hnames, hreads⟩ := hscan
          exact ⟨name :: before, after, by rw [hnames]; rfl, by rw [hreads]; rfl⟩
        | none => exact congrArg _ hscan

theorem wp_pollCarrier_reads {deadline rounds : Nat} :
    wp E.logged (LiveNet.pollCarrier names deadline rounds) (fun r t =>
      ∃ seg, t.2 = l ++ seg ∧ Polled names (carrierReads seg) r) (s, l) := by
  induction rounds generalizing s l with
  | zero => exact ⟨[], (List.append_nil l).symm, by simp [Polled, carrierReads]⟩
  | succ rounds ih =>
    unfold LiveNet.pollCarrier
    rw [wp_bind]
    refine wp_mono wp_findCarrier_reads ?_
    rintro found t ⟨seg, hl, hscan⟩
    cases found with
    | some k => exact ⟨seg, hl, hscan.polled⟩
    | none =>
      simp only [wp_bind, wp_logged_op, wp_ret, wp_ite, wp_pure]
      intro now u _
      refine ⟨fun _ => ⟨seg ++ [⟨.now, t.1, now⟩], ?_, ?_⟩, fun _ r v _ => ?_⟩
      · rw [hl, List.append_assoc]
      · rw [carrierReads_append]
        exact (List.append_nil _).symm ▸ hscan.polled
      · refine wp_mono ih ?_
        rintro found w ⟨seg', hl', hpoll⟩
        refine ⟨seg ++ (⟨.now, t.1, now⟩ :: ⟨.sleep LiveNet.autoCarrierPoll, u, r⟩ :: seg'), ?_, ?_⟩
        · rw [hl', hl]
          simp
        · rw [carrierReads_append]
          exact hpoll.append hscan.polled

/-- Setting candidates up reads no carrier. -/
theorem wp_waitCarrier_reads :
    wp E.logged (LiveNet.waitCarrier names) (fun r t =>
      ∃ seg, t.2 = l ++ seg ∧ Polled names (carrierReads seg) r) (s, l) := by
  have hall : (names.forM LiveNet.setCandidateUp).Within
      (fun c => ∀ name, c ≠ SysCall.carrierUpSys name) fun _ => True :=
    within_forM names trivial fun name => by simp [LiveNet.setCandidateUp]
  unfold LiveNet.waitCarrier
  rw [wp_bind]
  refine wp_mono (wp_within (I := fun t : σ × Log SysSig σ =>
    ∃ seg, t.2 = l ++ seg ∧ carrierReads seg = []) ?_ hall ⟨[], (List.append_nil l).symm, rfl⟩) ?_
  · intro c u r v hc hu hE
    obtain ⟨seg, hl, hseg⟩ := hu
    refine ⟨seg ++ [⟨c, u.1, r⟩], by rw [hE.2, hl, List.append_assoc], ?_⟩
    rw [carrierReads_append, hseg]
    cases c with
    | carrierUpSys name => exact absurd rfl (hc name)
    | _ => rfl
  · rintro _ t ⟨_, seg, hl, hseg⟩
    rw [wp_bind, wp_logged_op]
    intro now u _
    rw [wp_ret]
    refine wp_mono wp_pollCarrier_reads fun r v ⟨seg', hl', hpoll⟩ => ?_
    refine ⟨seg ++ (⟨.now, t.1, now⟩ :: seg'), ?_, ?_⟩
    · rw [hl', hl]
      simp
    · rw [carrierReads_append, hseg]
      exact hpoll

/-- **What the automatic pick picks**, whatever is answered. -/
theorem wpE_resolveAuto_reads {b : LiveNet.LinkBringUp} :
    wpE E.logged (LiveNet.resolveAuto b) (fun k t => ∃ names u,
      E .listPhysicalEthernet s (.ok names) u ∧ Picked names (carrierReads t.2) k)
      (fun _ _ => True) (s, []) := by
  unfold LiveNet.resolveAuto
  rw [wpE_bind, wpE_mk, wp_logged_op]
  intro r t hlist
  cases r with
  | error e => trivial
  | ok names =>
    cases names with
    | nil => trivial
    | cons head names =>
      show wpE E.logged (liftM (LiveNet.findCarrier (head :: names)) >>= _) _ _ _
      rw [wpE_bind, wpE_lift]
      refine wp_mono wp_findCarrier_reads fun found u ⟨seg, hl, hscan⟩ => ?_
      have hu : carrierReads u.2 = carrierReads seg := by rw [hl]; rfl
      cases found with
      | some k => exact ⟨head :: names, t, hlist, Or.inl (hu ▸ hscan.polled)⟩
      | none =>
        show wpE E.logged (_ >>= fun found : Option String => Pure.pure (found.getD head)) _ _ u
        rw [wpE_bind, wpE_ite, wpE_lift]
        refine ⟨fun _ => ?_, fun _ => ?_⟩
        · refine wp_mono wp_waitCarrier_reads fun found v ⟨seg', hl', hpoll⟩ => ?_
          refine ⟨head :: names, t, hlist, ?_⟩
          rw [hl', carrierReads_append, hu]
          cases found with
          | some k => exact Or.inl (hpoll.append hscan.polled)
          | none => exact Or.inr ⟨hpoll.append hscan.polled, rfl⟩
        · exact ⟨head :: names, t, hlist, Or.inr ⟨hu ▸ hscan.polled, rfl⟩⟩

end Reads

/-! ## Computing a resolution -/

def Net.setUpAll (n : Net) (names : List String) : Net :=
  { n with up := fun i => n.up i || decide (i ∈ names) }

namespace Lan
variable (lan : Lan) (n : Net)

theorem run_findCarrier (names : List String) :
    (LiveNet.findCarrier names).run lan.sys n = (names.find? (lan.carrier n), n) := by
  induction names with
  | nil => rfl
  | cons name names ih =>
    show (if lan.carrier n name then _ else LiveNet.findCarrier names).run lan.sys n = _
    cases hc : lan.carrier n name with
    | true =>
      rw [List.find?_cons_of_pos hc]
      rfl
    | false =>
      rw [List.find?_cons_of_neg (by simp [hc])]
      exact ih

theorem run_setCandidateUp (name : String) :
    (LiveNet.setCandidateUp name).run lan.sys n = (⟨⟩, n.setUpAll [name]) := by
  show (if n.up name then _ else _ : Prog SysSig PUnit).run lan.sys n = _
  cases hup : n.up name with
  | true =>
    have hsame : (fun i => n.up i || decide (i ∈ [name])) = n.up := by
      funext i
      by_cases hi : i = name <;> simp [hi, hup]
    show (_, n) = _
    rw [setUpAll, hsame]
  | false =>
    have hsame : (fun i => n.up i || decide (i ∈ [name])) = Function.update n.up name true := by
      funext i
      by_cases hi : i = name <;> simp [hi]
    show (_, n.setUp name true) = _
    rw [setUpAll, hsame]
    rfl

theorem run_setCandidatesUp (names : List String) :
    (names.forM LiveNet.setCandidateUp).run lan.sys n = (⟨⟩, n.setUpAll names) := by
  induction names generalizing n with
  | nil => simp [setUpAll]; rfl
  | cons name names ih =>
    show (LiveNet.setCandidateUp name >>= fun _ => names.forM _).run lan.sys n = _
    rw [run_bind, run_setCandidateUp, ih]
    simp [setUpAll, Bool.or_assoc]

/-- Polling brings nothing new where carriers do not come late. -/
theorem run_pollCarrier (names : List String) (deadline rounds : Nat) :
    (LiveNet.pollCarrier names deadline (rounds + 1)).run lan.sys n =
      (names.find? (lan.carrier n), n) := by
  -- the rounds that are left end in nothing found
  have hrest : names.find? (lan.carrier n) = none →
      (LiveNet.pollCarrier names deadline rounds).run lan.sys n = (none, n) := by
    intro hnone
    induction rounds with
    | zero => rfl
    | succ rounds ih =>
      rw [LiveNet.pollCarrier, run_bind, run_findCarrier, hnone]
      show (if deadline ≤ 0 then _ else _ : Prog SysSig (Option String)).run lan.sys n = _
      split
      · rfl
      · exact ih
  rw [LiveNet.pollCarrier, run_bind, run_findCarrier]
  cases hfind : names.find? (lan.carrier n) with
  | some name => rfl
  | none =>
    show (if deadline ≤ 0 then _ else _ : Prog SysSig (Option String)).run lan.sys n = _
    split
    · rfl
    · exact hrest hfind

theorem run_waitCarrier (names : List String) :
    (LiveNet.waitCarrier names).run lan.sys n =
      (names.find? (lan.carrier (n.setUpAll names)), n.setUpAll names) := by
  rw [LiveNet.waitCarrier, run_bind, run_setCandidatesUp]
  exact lan.run_pollCarrier _ names _ _

/-- **The automatic pick**, and the network it leaves. -/
theorem run_resolveAuto {fallback : String} {names : List String} (hlist : n.listError = none)
    (hnames : n.ethernets = fallback :: names) :
    (LiveNet.resolveAuto .live).run.run lan.sys n =
      match n.ethernets.find? (lan.carrier n) with
      | some name => (.ok name, n)
      | none => (.ok ((n.ethernets.find? (lan.carrier (n.setUpAll n.ethernets))).getD fallback),
          n.setUpAll n.ethernets) := by
  have hlisting : n.listing = .ok n.ethernets := by simp [Net.listing, hlist]
  have hfind := lan.run_findCarrier n n.ethernets
  cases hc : n.ethernets.find? (lan.carrier n) with
  | some name =>
    refine runE_bind_eq_ok.mpr ⟨n.ethernets, n, congrArg (·, n) hlisting, ?_⟩
    rw [hc] at hfind
    rw [hnames] at hfind ⊢
    exact runE_bind_eq_ok.mpr ⟨some name, n, runE_lift_eq_ok.mpr hfind, rfl⟩
  | none =>
    refine runE_bind_eq_ok.mpr ⟨n.ethernets, n, congrArg (·, n) hlisting, ?_⟩
    have hwait := lan.run_waitCarrier n n.ethernets
    rw [hc] at hfind
    rw [hnames] at hfind hwait ⊢
    refine runE_bind_eq_ok.mpr ⟨none, n, runE_lift_eq_ok.mpr hfind, ?_⟩
    exact runE_bind_eq_ok.mpr ⟨_, _, runE_lift_eq_ok.mpr hwait, rfl⟩

end Lan
end Micronet
