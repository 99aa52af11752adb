import Micronet.LiveMethods
import Micronet.Polling

/-!
# The waits of `LiveNet`

`wait_ipv4` and the search for a carrier are loops that look, and sleep before they look
again.  On a clock that does not go back, and that a sleep takes forward, both are the loops
of the source: the rounds they are given are never used up.
-/
namespace Micronet
namespace LiveNet
open Interaction Prog

/-! ## The search for a carrier -/

/-- One round: `none` asks for another. -/
def carrierRound (names : List String) (deadline : Nat) : Prog SysSig (Option (Option String)) := do
  match ← findCarrier names with
  | some name => return some (some name)
  | none =>
    let now ← sys .now
    if deadline ≤ now then
      return some none
    else
      let _ ← sys (.sleep autoCarrierPoll)
      return none

theorem pollCarrier_eq (names : List String) (deadline n : Nat) :
    pollCarrier names deadline n = (carrierRound names deadline).poll (Pure.pure none) n := by
  induction n with
  | zero => rfl
  | succ n ih =>
    rw [pollCarrier, poll, ← ih, carrierRound, bind_assoc]
    refine congrArg _ (funext fun found => ?_)
    cases found with
    | some name => rfl
    | none =>
      refine Eq.trans ?_ (bind_assoc (sys .now) _ _).symm
      refine congrArg (sys .now >>= ·) (funext fun now => ?_)
      by_cases hover : deadline ≤ now
      · rw [if_pos hover, if_pos hover]
        rfl
      · rw [if_neg hover, if_neg hover, bind_assoc]
        rfl

/-! ## The wait for an address -/

section Ipv4
variable (isNet : List Char → Bool) (iface : String) (start : Nat) (timeout : Duration)

/-- One round: `none` asks for another. -/
def ipv4Round : Prog HostSig (Option Bool) := do
  let now ← HostCall.now.make
  if now - start < timeout then
    if ← readHasIpv4 isNet iface then
      return some true
    else
      (HostCall.sleep waitIpv4Poll).make
      return none
  else
    let has ← readHasIpv4 isNet iface
    return some has

theorem pollIpv4_eq (n : Nat) : pollIpv4 isNet iface start timeout n =
    (ipv4Round isNet iface start timeout).poll (readHasIpv4 isNet iface) n := by
  induction n with
  | zero => rfl
  | succ n ih =>
    rw [pollIpv4, poll, ← ih, ipv4Round, bind_assoc]
    refine congrArg _ (funext fun now => ?_)
    by_cases hin : now - start < timeout
    · rw [if_pos hin, if_pos hin, bind_assoc]
      refine congrArg _ (funext fun has => ?_)
      cases has with
      | true => rfl
      | false =>
        rw [if_neg Bool.false_ne_true, if_neg Bool.false_ne_true, bind_assoc]
        rfl
    · rw [if_neg hin, if_neg hin, bind_assoc]
      exact (bind_pure _).symm

end Ipv4

/-! ## The clock -/

/-- A machine with a clock that does not go back. -/
structure HostClocked {σ : Type} (E : Env HostSig σ) (clock : σ → Nat) : Prop where
  /-- A look at the clock answers what it says after it. -/
  now : ∀ s r t, E .now s r t → r = clock t
  /-- A sleep takes its time, or more. -/
  sleep : ∀ d s r t, E (.sleep d) s r t → clock s + d ≤ clock t
  /-- A command or a read may take any time. -/
  mono : ∀ c s r t, E c s r t → clock s ≤ clock t

section Clock
variable {σ : Type} {clock : σ → Nat}

theorem Clocked.paced {E : Env SysSig σ} (hc : Clocked E clock) (names : List String)
    (deadline : Nat) : Paced E (carrierRound names deadline) clock deadline autoCarrierPoll := by
  have hround : ∀ s t, (carrierRound names deadline).Exec E s none t →
      clock s < deadline ∧ clock s + autoCarrierPoll ≤ clock t := by
    intro s t h
    obtain ⟨found, u, hfind, h⟩ := exec_bind.mp h
    have hsu := hc.exec_mono hfind
    cases found with
    | some name => cases h.1
    | none =>
      obtain ⟨now, v, hnow, h⟩ := exec_bind.mp h
      have huv := hc.mono _ _ _ _ (exec_call.mp hnow)
      obtain rfl := hc.now _ _ _ (exec_call.mp hnow)
      by_cases hover : deadline ≤ clock v
      · rw [if_pos hover] at h
        cases h.1
      · rw [if_neg hover] at h
        obtain ⟨_, w, hsleep, -, rfl⟩ := exec_bind.mp h
        have hgain := hc.sleep _ _ _ _ (exec_call.mp hsleep)
        omega
  exact ⟨fun s t h => (hround s t h).2, fun s t h => (hround s t h).1⟩

variable {E : Env HostSig σ} {isNet : List Char → Bool} {iface : String} {start : Nat}
  {timeout : Duration}

theorem HostClocked.exec_mono (hc : HostClocked E clock) {α : Type} {p : Prog HostSig α}
    {s t : σ} {a : α} (h : p.Exec E s a t) : clock s ≤ clock t :=
  h.keeps (I := fun u => clock s ≤ clock u)
    (fun c u r v hu he => Nat.le_trans hu (hc.mono c u r v he)) (Nat.le_refl _)

/-- **A round** that asks for another slept, and began in time; one that ends without an
address saw the timeout over. -/
theorem HostClocked.ipv4Round_cases (hc : HostClocked E clock) {s t : σ} {r : Option Bool}
    (h : (ipv4Round isNet iface start timeout).Exec E s r t) :
    r = some true ∨ r = none ∧ clock s < start + timeout ∧ clock s + waitIpv4Poll ≤ clock t ∨
      r = some false ∧ clock t - start ≥ timeout := by
  obtain ⟨now, u, hnow, h⟩ := exec_bind.mp h
  have hsu := hc.mono _ _ _ _ (exec_call.mp hnow)
  obtain rfl := hc.now _ _ _ (exec_call.mp hnow)
  by_cases hin : clock u - start < timeout
  · rw [if_pos hin] at h
    obtain ⟨has, v, hread, h⟩ := exec_bind.mp h
    have huv := hc.exec_mono hread
    cases has with
    | true => exact Or.inl h.1
    | false =>
      obtain ⟨_, w, hsleep, rfl, rfl⟩ := exec_bind.mp h
      have hgain := hc.sleep _ _ _ _ (exec_call.mp hsleep)
      exact Or.inr (Or.inl ⟨rfl, by omega, by omega⟩)
  · rw [if_neg hin] at h
    obtain ⟨has, v, hread, rfl, rfl⟩ := exec_bind.mp h
    have huv := hc.exec_mono hread
    cases has with
    | true => exact Or.inl rfl
    | false => exact Or.inr (Or.inr ⟨rfl, by omega⟩)

theorem HostClocked.paced (hc : HostClocked E clock) : Paced E (ipv4Round isNet iface start timeout)
    clock (start + timeout) waitIpv4Poll := by
  have hround : ∀ s t, (ipv4Round isNet iface start timeout).Exec E s none t →
      clock s < start + timeout ∧ clock s + waitIpv4Poll ≤ clock t := by
    intro s t h
    rcases hc.ipv4Round_cases h with h | h | h
    · cases h
    · exact h.2
    · cases h.1
  exact ⟨fun s t h => (hround s t h).2, fun s t h => (hround s t h).1⟩

/-- The wait for a carrier is its loop. -/
theorem exec_pollCarrier {E : Env SysSig σ} (hc : Clocked E clock) {names : List String} {s t : σ}
    {r : Option String} :
    (pollCarrier names (clock s + autoCarrierWait) pollRounds).Exec E s r t ↔
      ∃ k, Loops E (carrierRound names (clock s + autoCarrierWait)) k s r t := by
  rw [pollCarrier_eq]
  exact (hc.paced names _).exec_poll (Nat.add_le_add_left (by decide) _)

/-- **The wait for an address** is its loop, which has no bound of its own: `runWaitIpv4` does on
any machine whose clock goes on by what is slept (`hc`) what the rounds of the loop do, however
many they are.  And however the commands answer, it asks for another round at most once for each
200 ms of the timeout and once more, and it gives up no earlier than the timeout. -/
theorem exec_runWaitIpv4 (hc : HostClocked E clock) {s : σ} :
    (∀ r t, (runWaitIpv4 isNet iface timeout).Exec E s r t ↔ ∃ start u k, E .now s start u ∧
        Loops E (ipv4Round isNet iface start timeout) k u r t) ∧
      (∀ start u k v, E .now s start u → Rounds E (ipv4Round isNet iface start timeout) k u v →
        k ≤ timeout / waitIpv4Poll + 1) ∧
      ∀ t, (runWaitIpv4 isNet iface timeout).Exec E s false t → clock s + timeout ≤ clock t := by
  have hloop : ∀ r t, (runWaitIpv4 isNet iface timeout).Exec E s r t ↔ ∃ start u k,
      E .now s start u ∧ Loops E (ipv4Round isNet iface start timeout) k u r t := by
    intro r t
    rw [runWaitIpv4, exec_bind]
    have hpoll : ∀ start u, E .now s start u →
        ((pollIpv4 isNet iface start timeout (timeout / waitIpv4Poll + 2)).Exec E u r t ↔
          ∃ k, Loops E (ipv4Round isNet iface start timeout) k u r t) := by
      intro start u hnow
      obtain rfl := hc.now _ _ _ hnow
      rw [pollIpv4_eq]
      refine hc.paced.exec_poll ?_
      have hroom := Nat.lt_div_mul_add (a := timeout) (b := waitIpv4Poll) (by decide)
      rw [Nat.succ_mul]
      omega
    constructor
    · rintro ⟨start, u, hnow, h⟩
      obtain ⟨k, hk⟩ := (hpoll start u (exec_call.mp hnow)).mp h
      exact ⟨start, u, k, exec_call.mp hnow, hk⟩
    · rintro ⟨start, u, k, hnow, hk⟩
      exact ⟨start, u, exec_call.mpr hnow, (hpoll start u hnow).mpr ⟨k, hk⟩⟩
  refine ⟨hloop, fun start u k v hnow hrounds => ?_, fun t h => ?_⟩
  · obtain rfl := hc.now _ _ _ hnow
    cases k with
    | zero => exact Nat.zero_le _
    | succ k =>
      have hlast := hc.paced.rounds_lt hrounds
      have hk : k * waitIpv4Poll < timeout := by omega
      exact Nat.succ_le_succ ((Nat.le_div_iff_mul_le (by decide)).mpr hk.le)
  · obtain ⟨start, u, k, hnow, v, hrounds, hend⟩ := (hloop false t).mp h
    have hsu := hc.mono _ _ _ _ hnow
    obtain rfl := hc.now _ _ _ hnow
    have huv := hc.paced.clock_le hrounds
    have hvt := hc.exec_mono hend
    rcases hc.ipv4Round_cases hend with h | h | h
    · cases h
    · cases h.1
    · omega

end Clock

/-! ### A wait -/

/-- A machine that shows no address; only sleeping takes time. -/
def dozing : Handler HostSig Nat
  | .now, s => (s, s)
  | .sleep d, s | .pid _ (.sleep d), s => ((), s + d)
  | .output _ _, s => (none, s)
  | .readDir, s => (.ok [], s)
  | .readSys _, s => (none, s)
  | .isFile _, s => (false, s)
  | .pid _ .readPidfile, s => (.error (.other "No such file or directory (os error 2)"), s)
  | .pid _ (.readCmdline _), s => (.error (.other "No such file or directory (os error 2)"), s)
  | .run _ _, s | .createDirAll _, s | .pid _ (.kill _ _), s | .pid _ .removePidfile, s =>
    (.ok (), s)

theorem dozing_clocked : HostClocked dozing.graph id := by
  refine ⟨fun s r t h => h.1.trans h.2.symm, fun d s r t h => h.2.ge, fun c s r t h => ?_⟩
  have hmono : s ≤ (dozing c s).2 := by
    cases c with
    | sleep d => exact Nat.le_add_right s d
    | pid path c => cases c <;> first | exact Nat.le_add_right s _ | exact Nat.le_refl s
    | _ => exact Nat.le_refl s
  exact hmono.trans h.2.ge

/-- Five seconds pass before the wait for a lease gives up. -/
theorem dozing_waits : ∃ t, (runWaitIpv4 Ipv4Net.isDisplay "eth0" dhcpClientWait).Exec dozing.graph
    0 false t ∧ dhcpClientWait ≤ t := by
  have hrun : ((runWaitIpv4 Ipv4Net.isDisplay "eth0" dhcpClientWait).run dozing 0).1 = false := by
    decide +kernel
  obtain ⟨t, ht⟩ : ∃ t, (runWaitIpv4 Ipv4Net.isDisplay "eth0" dhcpClientWait).run dozing 0 =
      (false, t) := ⟨_, Prod.ext hrun rfl⟩
  have hexec := Handler.exec_graph.mpr ht
  have hlate : 0 + dhcpClientWait ≤ t := (exec_runWaitIpv4 dozing_clocked).2.2 t hexec
  rw [Nat.zero_add] at hlate
  exact ⟨t, hexec, hlate⟩

end LiveNet
end Micronet
