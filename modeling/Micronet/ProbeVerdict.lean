import Micronet.Probe
import Mathlib.Data.Nat.Find
import Mathlib.Order.Monotone.Defs

/-!
# The verdict of the probe

A session is what the outside does once the DISCOVER is sent: a clock that passes
every instant, and what each receive yields.  The probe ends at the first receive
that yields an offer or a fatal error, if that receive is started before the
deadline, and otherwise at the deadline (`returns_iff`).

So datagrams that are not offers to us can be put anywhere, in any number
(`Inserted.returns`).  All of this needs a deadline, and the deadline is a sum of an
instant and the timeout: where it does not fit, the probe returns nothing.
-/
namespace Micronet
open Interaction Prog Monotonic

namespace Probe

/-- The package's two halves: the decoder inverts the encoder. -/
structure Codec where
  /-- The bytes of a message; the package may refuse it. -/
  encode : DhcpMessage → Except String (List UInt8)
  /-- The message that a datagram holds, if it is one. -/
  decode : Decoder
  /-- What was encoded is decoded to itself. -/
  decode_encode : ∀ m b, encode m = .ok b → decode b = some m

/-- A probe of `mac` whose send succeeded. -/
structure Session (P : Codec) (mac : Mac) where
  /-- The transaction of the probe, and its DHCPDISCOVER as it was sent. -/
  xid : UInt32
  pkt : List UInt8
  sent : P.encode (discover mac xid) = .ok pkt
  /-- The reading that the deadline is computed from. -/
  start : Timespec
  /-- The readings before the receives. -/
  times : Nat → Timespec
  /-- What each receive returned. -/
  outcomes : Nat → Received
  /-- The clock does not go back, and passes every instant. -/
  start_le : start ≤ times 0
  mono : ∀ i, times i ≤ times (i + 1)
  passes : ∀ t, ∃ i, t ≤ times i

/-- A datagram that decodes to an offer to us, from someone. -/
def ForeignOffer (decode : Decoder) (xid : UInt32) (mac : Mac) (buf : List UInt8)
    (src : SocketAddr) : Prop :=
  ∃ msg, decode buf = some msg ∧ msg.opcode = .bootReply ∧ msg.htype = .eth ∧ msg.hlen = 6 ∧
    msg.xid = xid ∧ msg.chaddr.take 6 = mac.toList ∧ msg.messageType = some .offer ∧
    (msg.serverIdentifier.isSome ∨ ∃ ip port, src = .v4 ip port ∧ ip ≠ unspecified)

section Offer
variable {decode : Decoder} {xid : UInt32} {mac : Mac} {buf : List UInt8} {src : SocketAddr}

theorem udpSrcV4_ne :
    udpSrcV4 src ≠ unspecified ↔ ∃ ip port, src = .v4 ip port ∧ ip ≠ unspecified := by
  cases src with
  | v4 ip port => simp [udpSrcV4]
  | v6 ip port => simp [udpSrcV4]

theorem isSome_offerIdentity {serverId : Option Ipv4Addr} {udpSrc : Ipv4Addr} :
    (offerIdentity serverId udpSrc).isSome ↔ serverId.isSome ∨ udpSrc ≠ unspecified := by
  cases serverId with
  | some ip => simp [offerIdentity]
  | none => by_cases h : udpSrc = unspecified <;> simp [offerIdentity, h]

theorem decodeMatchingOffer_eq_some {offer : OfferView} :
    decodeMatchingOffer decode buf xid mac = some offer ↔
      ∃ msg, decode buf = some msg ∧ msg.opcode = .bootReply ∧ msg.htype = .eth ∧ msg.hlen = 6 ∧
        msg.xid = xid ∧ msg.chaddr.take 6 = mac.toList ∧ msg.messageType = some .offer ∧
        offer = ⟨msg.serverIdentifier⟩ := by
  have hlen {l : List UInt8} (h : l.take 6 = mac.toList) : ¬ l.length < 6 := by
    have := congrArg List.length h
    simp at this
    omega
  unfold decodeMatchingOffer
  cases hdec : decode buf with
  | none => simp
  | some msg =>
    simp only [Option.bind_eq_bind, Option.bind_some, Option.some.injEq, exists_eq_left']
    grind

theorem isForeignOffer_iff :
    isForeignOffer decode xid mac buf src = true ↔ ForeignOffer decode xid mac buf src := by
  unfold isForeignOffer ForeignOffer
  cases hoffer : decodeMatchingOffer decode buf xid mac with
  | some offer =>
    obtain ⟨msg, hdec, hop, hht, hhlen, hxid, hch, hty, rfl⟩ :=
      decodeMatchingOffer_eq_some.mp hoffer
    simp [hdec, hop, hht, hhlen, hxid, hch, hty, isSome_offerIdentity, udpSrcV4_ne]
  | none =>
    constructor
    · intro h
      cases h
    · rintro ⟨msg, hdec, hop, hht, hhlen, hxid, hch, hty, -⟩
      have hsome := decodeMatchingOffer_eq_some.mpr
        ⟨msg, hdec, hop, hht, hhlen, hxid, hch, hty, rfl⟩
      rw [hoffer] at hsome
      cases hsome

end Offer

/-! ## Sessions -/

namespace Session
variable {P : Codec} {mac : Mac} (T : Session P mac)

/-- The session answers; its state counts the readings of the clock that open a round,
the deadline's included. -/
def handler : Handler ProbeSig Nat := fun c s =>
  match c with
  | .readMac _ => (.ok mac, s)
  | .xidNow => (T.xid, s)
  | .encode msg => (P.encode msg, s)
  | .socket | .setReuseAddress | .setBroadcast | .setReadTimeout _ | .bindDevice _ | .bind _
  | .sendTo _ _ => (.ok (), s)
  | .now =>
    match s with
    | 0 => (T.start.ticks, 1)
    | i + 1 => ((T.times i).ticks, i + 1)
  | .recvFrom => (T.outcomes (s - 1), s + 1)

/-- The probe returns `r`, when its loop is followed for long enough. -/
def Returns (iface : String) (timeout : Duration) (r : Except Error Bool) : Prop :=
  ∃ N, ∀ n ≥ N, ((probeForeignDhcp P.decode n iface mac timeout).run.run.run T.handler 0).1 = .ok r

/-- The receive is started before the deadline. -/
def Started (timeout : Duration) (i : Nat) : Prop :=
  (T.times i).ticks < T.start.ticks + timeout

/-- The receive yields these bytes, as many as the buffer holds. -/
def Yields (i : Nat) (buf : List UInt8) (src : SocketAddr) : Prop :=
  ∃ datagram, T.outcomes i = .datagram datagram src ∧ buf = datagram.take bufLen

/-- The receive yields an offer to us. -/
def Offer (i : Nat) : Prop :=
  ∃ buf src, T.Yields i buf src ∧ ForeignOffer P.decode T.xid mac buf src

/-- The receive fails for good. -/
def Fatal (i : Nat) : Prop := ∃ e, T.outcomes i = .failed e

/-- What the receive ends the probe with, if it does. -/
def signal (i : Nat) : Option (Except Error Bool) :=
  match T.outcomes i with
  | .datagram buf src =>
    if isForeignOffer P.decode T.xid mac (buf.take bufLen) src then some (.ok true) else none
  | .timedOut => none
  | .failed e => some (.error (.dhcpProbe ("dhcp recv: " ++ e)))

theorem signal_eq_ok {i : Nat} {b : Bool} :
    T.signal i = some (.ok b) ↔ b = true ∧ T.Offer i := by
  unfold signal Offer Yields
  cases hout : T.outcomes i with
  | datagram buf src =>
    by_cases hoffer : isForeignOffer P.decode T.xid mac (buf.take bufLen) src = true
    · simp [hoffer, isForeignOffer_iff.mp hoffer, eq_comm]
    · simp [hoffer, mt isForeignOffer_iff.mpr hoffer]
  | timedOut => simp
  | failed e => simp

theorem signal_eq_error {i : Nat} : (∃ e, T.signal i = some (.error e)) ↔ T.Fatal i := by
  unfold signal Fatal
  cases hout : T.outcomes i with
  | datagram buf src =>
    by_cases hoffer : isForeignOffer P.decode T.xid mac (buf.take bufLen) src <;> simp [hoffer]
  | timedOut => simp
  | failed e => simp

theorem exec_probeCall (c : ProbeCall) (s : Nat) :
    (probeCall c).run.Exec T.handler.graph s (.ok (T.handler c s).1) (T.handler c s).2 :=
  exec_lift_ok.mpr (exec_call.mpr ⟨rfl, rfl⟩)

theorem exec_succeeds {c : ProbeCall} {r : c.Ret} (h : c.Succeeds r) :
    (probeCall c).run.Exec T.handler.graph 0 (.ok r) 0 := by
  cases c with
  | readMac | xidNow | encode | now | recvFrom => exact h.elim
  | _ => exact h ▸ T.exec_probeCall _ 0

variable (iface : String) (timeout : Duration)

/-- Up to the loop: the send succeeds, and then the deadline is computed. -/
theorem exec_probeForeignDhcp {n t : Nat} {r : Except Halt (Except Error Bool)}
    (h : (do
      let deadline ← (plus T.start.ticks timeout : ExceptT Halt (Prog ProbeSig) Nat)
      awaitOffer P.decode T.xid mac deadline n : ProbeM Bool).run.run.Exec T.handler.graph 1 r t) :
    (probeForeignDhcp P.decode n iface mac timeout).run.run.Exec T.handler.graph 0 r t := by
  refine exec_run_bind (exec_run_lift (T.exec_probeCall .xidNow 0)) ?_
  have hencode : (encodeDiscover mac T.xid).run.run.Exec T.handler.graph 0 (.ok (.ok T.pkt)) 0 :=
    exec_context (T.sent ▸ T.exec_probeCall (.encode (discover mac T.xid)) 0)
  refine exec_run_bind hencode ?_
  refine exec_run_bind (exec_sendDiscover fun c r hr => T.exec_succeeds hr) ?_
  exact exec_run_bind (exec_run_lift (T.exec_probeCall .now 0)) h

theorem run_overflow (h : ¬ Fits T.start.ticks timeout) (n : Nat) :
    (probeForeignDhcp P.decode n iface mac timeout).run.run.run T.handler 0 =
      (.error .overflow, 1) :=
  Handler.exec_graph.mp
    (T.exec_probeForeignDhcp iface timeout (exec_run_lift_halt (exec_plus_overflow h)))

theorem run_awaits (h : Fits T.start.ticks timeout) (n : Nat) :
    (probeForeignDhcp P.decode n iface mac timeout).run.run.run T.handler 0 =
      (awaitOffer P.decode T.xid mac (T.start.ticks + timeout) n).run.run.run T.handler 1 :=
  Handler.exec_graph.mp (T.exec_probeForeignDhcp iface timeout
    (exec_run_bind (exec_run_lift (exec_plus h)) (Handler.exec_graph.mpr rfl)))

/-! ### The loop -/

/-- The loop, at the reading before receive `i`. -/
def await (n i : Nat) : Except Halt (Except Error Bool) :=
  ((awaitOffer P.decode T.xid mac (T.start.ticks + timeout) n).run.run.run T.handler (i + 1)).1

variable {timeout}

theorem await_of_exec {n i t : Nat} {r : Except Halt (Except Error Bool)}
    (h : (awaitOffer P.decode T.xid mac (T.start.ticks + timeout) n).run.run.Exec T.handler.graph
      (i + 1) r t) : T.await timeout n i = r :=
  congrArg Prod.fst (Handler.exec_graph.mp h)

/-- A round that is begun at the deadline ends the loop. -/
theorem await_deadline {n i : Nat} (h : ¬ T.Started timeout i) :
    T.await timeout (n + 1) i = .ok (.ok false) := by
  have hnow : ¬ (T.times i).ticks < T.start.ticks + timeout := h
  refine T.await_of_exec (t := i + 1) ?_
  refine exec_run_bind (exec_run_lift (T.exec_probeCall .now (i + 1))) ?_
  show (if (T.times i).ticks < T.start.ticks + timeout then _ else _ : ProbeM Bool).run.run.Exec
    _ _ _ _
  rw [if_neg hnow]
  exact ⟨rfl, rfl⟩

/-- Before it, a receive that yields neither an offer nor an error opens the next round. -/
theorem await_started {n i : Nat} (h : T.Started timeout i) :
    T.await timeout (n + 1) i =
      match T.signal i with
      | some r => .ok r
      | none => T.await timeout n (i + 1) := by
  have hnow : (T.times i).ticks < T.start.ticks + timeout := h
  -- the two calls of the round, whatever follows them
  have hround {r : Except Halt (Except Error Bool)} {t : Nat}
      (hr : (match T.outcomes i with
        | .datagram buf src =>
          if isForeignOffer P.decode T.xid mac (buf.take bufLen) src then return true
          else awaitOffer P.decode T.xid mac (T.start.ticks + timeout) n
        | .timedOut => awaitOffer P.decode T.xid mac (T.start.ticks + timeout) n
        | .failed e => throw (.dhcpProbe ("dhcp recv: " ++ e)) : ProbeM Bool).run.run.Exec
          T.handler.graph (i + 2) r t) : T.await timeout (n + 1) i = r := by
    refine T.await_of_exec (t := t) ?_
    refine exec_run_bind (exec_run_lift (T.exec_probeCall .now (i + 1))) ?_
    show (if (T.times i).ticks < T.start.ticks + timeout then _ else _ : ProbeM Bool).run.run.Exec
      _ _ _ _
    rw [if_pos hnow]
    exact exec_run_bind (exec_run_lift (T.exec_probeCall .recvFrom (i + 1))) hr
  have hnext : (awaitOffer P.decode T.xid mac (T.start.ticks + timeout) n).run.run.Exec
      T.handler.graph (i + 2) (T.await timeout n (i + 1)) _ := Handler.exec_graph.mpr rfl
  unfold signal
  cases hout : T.outcomes i with
  | datagram buf src =>
    rw [hout] at hround
    by_cases hoffer : isForeignOffer P.decode T.xid mac (buf.take bufLen) src = true
    · simp only [hoffer, if_true] at hround ⊢
      exact hround ⟨rfl, rfl⟩
    · simp only [hoffer] at hround ⊢
      exact hround hnext
  | timedOut =>
    rw [hout] at hround
    exact hround hnext
  | failed e =>
    rw [hout] at hround
    exact hround ⟨rfl, rfl⟩

/-- **Rounds that yield nothing are skipped**, however many they are. -/
theorem await_skip {n m i : Nat}
    (h : ∀ j, i ≤ j → j < i + m → T.Started timeout j ∧ T.signal j = none) :
    T.await timeout (n + m) i = T.await timeout n (i + m) := by
  induction m generalizing i with
  | zero => rfl
  | succ m ih =>
    obtain ⟨hstarted, hsignal⟩ := h i (le_refl i) (by omega)
    rw [← Nat.add_assoc, T.await_started hstarted, hsignal]
    show T.await timeout (n + m) (i + 1) = _
    rw [ih fun j hij hj => h j (by omega) (by omega)]
    congr 1
    omega

/-- What the probe ends with: the first signal of a receive before the deadline, or
no offer at the deadline. -/
inductive Ends (timeout : Duration) : Except Error Bool → Prop
  | signal {r : Except Error Bool} (i : Nat) (started : T.Started timeout i)
      (first : ∀ j < i, T.signal j = none) (yields : T.signal i = some r) : Ends timeout r
  | deadline (quiet : ∀ i, T.Started timeout i → T.signal i = none) : Ends timeout (.ok false)

theorem times_mono {i j : Nat} (h : i ≤ j) : (T.times i).ticks ≤ (T.times j).ticks := by
  induction j, h using Nat.le_induction with
  | base => exact le_refl _
  | succ j _ ih => exact le_trans ih ((Timespec.ticks_le_ticks _ _).mpr (T.mono j))

theorem Started.mono {i j : Nat} (h : T.Started timeout j) (hij : i ≤ j) : T.Started timeout i :=
  lt_of_le_of_lt (T.times_mono hij) h

/-- A deadline that fits is passed. -/
theorem exists_not_started (h : Fits T.start.ticks timeout) : ∃ i, ¬ T.Started timeout i := by
  have hsome := (T.start.isSome_checkedAdd timeout).mpr h
  obtain ⟨deadline, hadd⟩ := Option.isSome_iff_exists.mp hsome
  obtain ⟨i, hi⟩ := T.passes deadline
  have hticks := T.start.map_ticks_checkedAdd timeout
  rw [hadd, if_pos h] at hticks
  have hle := (Timespec.ticks_le_ticks _ _).mpr hi
  exact ⟨i, not_lt.mpr (Option.some.inj hticks ▸ hle)⟩

open Classical in
theorem exists_first {p : Nat → Prop} (h : ∃ i, p i) : ∃ k, p k ∧ ∀ j < k, ¬ p j :=
  ⟨Nat.find h, Nat.find_spec h, fun _ hj => Nat.find_min h hj⟩

/-- There is a first round that ends the loop. -/
theorem exists_ends (h : Fits T.start.ticks timeout) :
    ∃ r, T.Ends timeout r ∧ ∃ N, ∀ n ≥ N, T.await timeout n 0 = .ok r := by
  -- the first round that is late or yields something
  obtain ⟨k, hfirst, hbefore⟩ : ∃ k, (T.Started timeout k → T.signal k ≠ none) ∧
      ∀ j < k, T.Started timeout j ∧ T.signal j = none := by
    obtain ⟨i, hi⟩ := T.exists_not_started h
    obtain ⟨k, hk, hmin⟩ := exists_first
      (p := fun i => T.Started timeout i → T.signal i ≠ none) ⟨i, fun hi' => absurd hi' hi⟩
    refine ⟨k, hk, fun j hj => ?_⟩
    have := hmin j hj
    push Not at this
    exact this
  have hskip (n : Nat) (hn : n ≥ k + 1) :
      T.await timeout n 0 = T.await timeout (n - k - 1 + 1) k := by
    have h0 := T.await_skip (n := n - k) (m := k) (i := 0) fun j _ hj => hbefore j (by omega)
    rw [Nat.zero_add, Nat.sub_add_cancel (by omega)] at h0
    rw [h0, Nat.sub_add_cancel (by omega)]
  by_cases hstarted : T.Started timeout k
  · obtain ⟨r, hr⟩ := Option.ne_none_iff_exists'.mp (hfirst hstarted)
    refine ⟨r, .signal k hstarted (fun j hj => (hbefore j hj).2) hr, k + 1, fun n hn => ?_⟩
    rw [hskip n hn, T.await_started hstarted, hr]
  · refine ⟨.ok false, .deadline fun i hi => ?_, k + 1, fun n hn => ?_⟩
    · by_cases hik : i < k
      · exact (hbefore i hik).2
      · exact absurd (hi.mono T (by omega)) hstarted
    · rw [hskip n hn, T.await_deadline hstarted]

theorem Ends.unique {r r' : Except Error Bool} (h : T.Ends timeout r) (h' : T.Ends timeout r') :
    r = r' := by
  cases h with
  | signal i started first yields =>
    cases h' with
    | signal j started' first' yields' =>
      rcases Nat.lt_trichotomy i j with hij | rfl | hij
      · exact absurd (first' i hij) (by simp [yields])
      · exact Option.some.inj (yields.symm.trans yields')
      · exact absurd (first j hij) (by simp [yields'])
    | deadline quiet => exact absurd (quiet i started) (by simp [yields])
  | deadline quiet =>
    cases h' with
    | signal j started' _ yields' => exact absurd (quiet j started') (by simp [yields'])
    | deadline _ => rfl

theorem returns_iff_await (h : Fits T.start.ticks timeout) {r : Except Error Bool} :
    T.Returns iface timeout r ↔ ∃ N, ∀ n ≥ N, T.await timeout n 0 = .ok r := by
  unfold Returns
  simp only [T.run_awaits iface timeout h]
  rfl

/-- **The probe returns what its session ends with.** -/
theorem returns_iff (h : Fits T.start.ticks timeout) {r : Except Error Bool} :
    T.Returns iface timeout r ↔ T.Ends timeout r := by
  obtain ⟨r', hends, N, hN⟩ := T.exists_ends h
  rw [T.returns_iff_await iface h]
  constructor
  · rintro ⟨M, hM⟩
    have hboth := (hN (max N M) (le_max_left N M)).symm.trans (hM (max N M) (le_max_right N M))
    cases hboth
    exact hends
  · intro hr
    obtain rfl := hr.unique T hends
    exact ⟨N, hN⟩

theorem not_returns (h : ¬ Fits T.start.ticks timeout) (r : Except Error Bool) :
    ¬ T.Returns iface timeout r := by
  rintro ⟨N, hN⟩
  have hrun := hN N (le_refl N)
  rw [T.run_overflow iface timeout h] at hrun
  cases hrun

/-! ### The verdict -/

/-- Some receive before the deadline yields an offer, and none before it fails. -/
def OfferFirst (timeout : Duration) : Prop :=
  ∃ i, T.Started timeout i ∧ T.Offer i ∧ ∀ j < i, ¬ T.Fatal j

/-- Some receive before the deadline fails, and none before it yields an offer. -/
def FatalFirst (timeout : Duration) : Prop :=
  ∃ i, T.Started timeout i ∧ T.Fatal i ∧ ∀ j < i, ¬ T.Offer j

theorem signal_eq_none {i : Nat} : T.signal i = none ↔ ¬ T.Offer i ∧ ¬ T.Fatal i := by
  have hoffer : T.Offer i ↔ T.signal i = some (.ok true) := by simp [signal_eq_ok]
  rw [← signal_eq_error, hoffer]
  cases hsignal : T.signal i with
  | none => simp
  | some r =>
    cases r with
    | ok b => simp [(T.signal_eq_ok.mp hsignal).1]
    | error e => simp

/-- A signal of either kind is preceded by the first one. -/
theorem exists_ends_signal {i : Nat} (hi : T.Started timeout i) (h : T.signal i ≠ none) :
    ∃ k ≤ i, ∃ r, T.signal k = some r ∧ T.Ends timeout r := by
  obtain ⟨k, hk, hmin⟩ := exists_first (p := fun i => T.signal i ≠ none) ⟨i, h⟩
  have hki : k ≤ i := not_lt.mp fun hik => hmin i hik h
  obtain ⟨r, hr⟩ := Option.ne_none_iff_exists'.mp hk
  exact ⟨k, hki, r, hr, .signal k (hi.mono T hki) (fun j hj => not_not.mp (hmin j hj)) hr⟩

theorem ends_true : T.Ends timeout (.ok true) ↔ T.OfferFirst timeout := by
  constructor
  · rintro (⟨i, hi, hfirst, hsignal⟩ | _)
    exact ⟨i, hi, (T.signal_eq_ok.mp hsignal).2, fun j hj => (T.signal_eq_none.mp (hfirst j hj)).2⟩
  · rintro ⟨i, hi, hoffer, hfatal⟩
    have hsome : T.signal i ≠ none := fun h => (T.signal_eq_none.mp h).1 hoffer
    obtain ⟨k, hki, r, hr, hends⟩ := T.exists_ends_signal hi hsome
    cases r with
    | ok b => exact (T.signal_eq_ok.mp hr).1 ▸ hends
    | error e =>
      have hk : T.Fatal k := T.signal_eq_error.mp ⟨e, hr⟩
      rcases Nat.lt_or_eq_of_le hki with hlt | rfl
      · exact absurd hk (hfatal k hlt)
      · rw [T.signal_eq_ok.mpr ⟨rfl, hoffer⟩] at hr
        cases hr

theorem ends_error : (∃ e, T.Ends timeout (.error e)) ↔ T.FatalFirst timeout := by
  constructor
  · rintro ⟨e, ⟨i, hi, hfirst, hsignal⟩⟩
    exact ⟨i, hi, T.signal_eq_error.mp ⟨e, hsignal⟩,
      fun j hj => (T.signal_eq_none.mp (hfirst j hj)).1⟩
  · rintro ⟨i, hi, hfatal, hoffer⟩
    have hsome : T.signal i ≠ none := fun h => (T.signal_eq_none.mp h).2 hfatal
    obtain ⟨k, hki, r, hr, hends⟩ := T.exists_ends_signal hi hsome
    cases r with
    | error e => exact ⟨e, hends⟩
    | ok b =>
      have hk : T.Offer k := (T.signal_eq_ok.mp hr).2
      rcases Nat.lt_or_eq_of_le hki with hlt | rfl
      · exact absurd hk (hoffer k hlt)
      · obtain ⟨e, he⟩ := T.signal_eq_error.mpr hfatal
        rw [he] at hr
        cases hr

theorem ends_false (h : Fits T.start.ticks timeout) :
    T.Ends timeout (.ok false) ↔ ¬ T.OfferFirst timeout ∧ ¬ T.FatalFirst timeout := by
  rw [← ends_true, ← ends_error]
  constructor
  · intro hends
    refine ⟨fun h' => ?_, fun ⟨e, h'⟩ => ?_⟩
    · cases hends.unique T h'
    · cases hends.unique T h'
  · rintro ⟨htrue, herror⟩
    obtain ⟨r, hends, -⟩ := T.exists_ends h
    cases r with
    | error e => exact absurd ⟨e, hends⟩ herror
    | ok b =>
      cases b with
      | true => exact absurd hends htrue
      | false => exact hends

/-! ### Unrelated datagrams -/

/-- Bytes that are no message, a message of another exchange or of another kind, or a
DISCOVER. -/
inductive Unrelated (P : Codec) (xid : UInt32) (mac : Mac) : List UInt8 → Prop
  | malformed {buf : List UInt8} (h : P.decode buf = none) : Unrelated P xid mac buf
  | foreign {buf : List UInt8} {msg : DhcpMessage} (h : P.decode buf = some msg)
      (hne : msg.xid ≠ xid ∨ msg.chaddr.take 6 ≠ mac.toList ∨ msg.opcode ≠ .bootReply ∨
        msg.messageType ≠ some .offer) : Unrelated P xid mac buf
  | discover {buf : List UInt8} {mac' : Mac} {xid' : UInt32}
      (h : P.encode (discover mac' xid') = .ok buf) : Unrelated P xid mac buf

theorem Unrelated.not_foreignOffer {P : Codec} {mac : Mac} {xid : UInt32} {buf : List UInt8}
    {src : SocketAddr} (h : Unrelated P xid mac buf) : ¬ ForeignOffer P.decode xid mac buf src := by
  rintro ⟨msg, hdec, hop, -, -, hxid, hch, hty, -⟩
  cases h with
  | malformed h =>
    rw [h] at hdec
    cases hdec
  | foreign h hne =>
    cases Option.some.inj (h.symm.trans hdec)
    rcases hne with hne | hne | hne | hne
    · exact hne hxid
    · exact hne hch
    · exact hne hop
    · exact hne hty
  | discover h =>
    cases Option.some.inj ((P.decode_encode _ _ h).symm.trans hdec)
    cases hop

/-- `T'` is `T` with receives put in that time out or yield an unrelated datagram; the
receives of `T` are on the side of the deadline where they were. -/
structure Inserted (timeout : Duration) (T' : Session P mac) : Prop where
  /-- The probe is the same, and begins at the same time. -/
  xid : T'.xid = T.xid
  start : T'.start = T.start
  /-- `f` gives the receives of `T` their places among those of `T'`; the others bring nothing of
  the transaction. -/
  place : ∃ f : Nat → Nat, StrictMono f ∧
    (∀ i, T'.outcomes (f i) = T.outcomes i ∧ (T'.Started timeout (f i) ↔ T.Started timeout i)) ∧
    ∀ j, j ∉ Set.range f → T'.outcomes j = .timedOut ∨
      ∃ buf src, T'.Yields j buf src ∧ Unrelated P T.xid mac buf

theorem Inserted.ends {T' : Session P mac} (h : T.Inserted timeout T') {r : Except Error Bool}
    (hr : T.Ends timeout r) : T'.Ends timeout r := by
  obtain ⟨f, hf, hkept, hnew⟩ := h.place
  have hsame (i : Nat) : T'.signal (f i) = T.signal i := by
    unfold signal
    rw [(hkept i).1, h.xid]
  -- the rounds that were put in yield nothing
  have hquiet (j : Nat) (hj : j ∉ Set.range f) : T'.signal j = none := by
    refine T'.signal_eq_none.mpr ⟨?_, ?_⟩
    · rintro ⟨buf, src, ⟨d, hd, rfl⟩, hoffer⟩
      rcases hnew j hj with hout | ⟨buf', src', ⟨d', hd', rfl⟩, hun⟩
      · rw [hout] at hd
        cases hd
      · rw [hd'] at hd
        cases hd
        exact hun.not_foreignOffer (h.xid ▸ hoffer)
    · rintro ⟨e, he⟩
      rcases hnew j hj with hout | ⟨buf', src', ⟨d', hd', rfl⟩, -⟩
      · rw [hout] at he
        cases he
      · rw [hd'] at he
        cases he
  cases hr with
  | signal i started first yields =>
    refine .signal (f i) ((hkept i).2.mpr started) (fun j hj => ?_) ((hsame i).trans yields)
    by_cases hrange : j ∈ Set.range f
    · obtain ⟨i', rfl⟩ := hrange
      rw [hsame]
      exact first i' (hf.lt_iff_lt.mp hj)
    · exact hquiet j hrange
  | deadline quiet =>
    refine .deadline fun j hj => ?_
    by_cases hrange : j ∈ Set.range f
    · obtain ⟨i', rfl⟩ := hrange
      rw [hsame]
      exact quiet i' ((hkept i').2.mp hj)
    · exact hquiet j hrange

/-- **Unrelated datagrams change nothing.** -/
theorem Inserted.returns {T' : Session P mac} (h : T.Inserted timeout T') {r : Except Error Bool} :
    T'.Returns iface timeout r ↔ T.Returns iface timeout r := by
  by_cases hfit : Fits T.start.ticks timeout
  · rw [T'.returns_iff iface (h.start ▸ hfit), T.returns_iff iface hfit]
    refine ⟨fun hr => ?_, h.ends⟩
    obtain ⟨r', hr', -⟩ := T.exists_ends hfit
    exact hr.unique T' (h.ends T hr') ▸ hr'
  · have hfit' : ¬ Fits T'.start.ticks timeout := h.start ▸ hfit
    exact iff_of_false (T'.not_returns iface hfit' r) (T.not_returns iface hfit r)

/-- What the probe is to say of its session. -/
structure Verdict (iface : String) (timeout : Duration) : Prop where
  /-- It says yes exactly if an offer comes before the deadline and any fatal error. -/
  offered : T.Returns iface timeout (.ok true) ↔ T.OfferFirst timeout
  /-- It fails exactly if a fatal error comes first. -/
  failed : (∃ e, T.Returns iface timeout (.error e)) ↔ T.FatalFirst timeout
  /-- It says no exactly if neither comes. -/
  quiet : T.Returns iface timeout (.ok false) ↔ ¬ T.OfferFirst timeout ∧ ¬ T.FatalFirst timeout
  /-- Timeouts and unrelated datagrams in between change nothing. -/
  unchanged : ∀ T', T.Inserted timeout T' →
    ∀ r, T'.Returns iface timeout r ↔ T.Returns iface timeout r

theorem not_verdict (h : ¬ Fits T.start.ticks timeout) : ¬ T.Verdict iface timeout := by
  intro hv
  have hnone := T.not_returns iface h
  have htrue := mt hv.offered.mpr (hnone _)
  have herror := mt hv.failed.mpr (not_exists.mpr fun e => hnone (.error e))
  exact hnone _ (hv.quiet.mpr ⟨htrue, herror⟩)

/-- **The probe has its verdict if and only if its deadline is an instant.**  The session `T` is
any: whatever is received and whenever, with the clock going on for ever, and for any codec of the
package that decodes what it has encoded. -/
theorem verdict_iff :
    T.Verdict iface timeout ↔ (T.start.checkedAdd timeout).isSome := by
  rw [Timespec.isSome_checkedAdd]
  constructor
  · exact not_imp_not.mp (T.not_verdict iface)
  · intro hfit
    refine ⟨?_, ?_, ?_, fun T' h r => h.returns T iface⟩
    · rw [T.returns_iff iface hfit, ends_true]
    · simp only [T.returns_iff iface hfit]
      exact T.ends_error
    · rw [T.returns_iff iface hfit, T.ends_false hfit]

end Session

/-! ### A deadline that does not fit -/

theorem exists_codec (m : DhcpMessage) (b : List UInt8) : ∃ P : Codec, P.encode m = .ok b := by
  refine ⟨⟨fun m' => if m' = m then .ok b else .error "unknown", fun b' =>
    if b' = b then some m else none, fun m' b' h => ?_⟩, if_pos rfl⟩
  by_cases hm : m' = m
  · rw [if_pos hm] at h
    cases h
    rw [if_pos rfl, hm]
  · rw [if_neg hm] at h
    cases h

/-- A session without a datagram, from the start of the clock. -/
theorem exists_silent {P : Codec} {mac : Mac} {xid : UInt32} {pkt : List UInt8}
    (sent : P.encode (discover mac xid) = .ok pkt) :
    ∃ T : Session P mac, T.xid = xid ∧ T.start.secs = 0 ∧ ∀ i, T.outcomes i = .timedOut := by
  obtain ⟨f, hsecs, hnanos⟩ : ∃ f : Nat → Timespec,
      (∀ i : Nat, (f i).secs = min (i : Int) (2 ^ 63 - 1)) ∧ ∀ i, (f i).nanos = 10 ^ 9 - 1 :=
    ⟨fun i => ⟨min i (2 ^ 63 - 1), 10 ^ 9 - 1, by omega, by omega, by omega⟩,
      fun _ => rfl, fun _ => rfl⟩
  have hle (t : Timespec) (j : Nat) (h : t.secs ≤ min (j : Int) (2 ^ 63 - 1)) : t ≤ f j := by
    show t.secs < (f j).secs ∨ t.secs = (f j).secs ∧ t.nanos ≤ (f j).nanos
    have := t.nanos_lt
    rw [hsecs, hnanos]
    omega
  refine ⟨⟨xid, pkt, sent, ⟨0, 0, by omega, by omega, by omega⟩, f, fun _ => .timedOut, ?_, ?_, ?_⟩,
    rfl, rfl, fun _ => rfl⟩
  · exact hle _ 0 (by simp)
  · intro i
    refine hle _ _ ?_
    rw [hsecs]
    omega
  · intro t
    have := t.secs_lt
    exact ⟨t.secs.toNat, hle t _ (by omega)⟩

/-- With the largest timeout a configuration can hold, the probe panics once its
DISCOVER is sent. -/
theorem largest_timeout_no_verdict :
    ∃ (P : Codec) (mac : Mac) (T : Session P mac), T.start.secs = 0 ∧
      (∀ i, T.outcomes i = .timedOut) ∧
      (∀ n, (probeForeignDhcp P.decode n "eth0" mac (.fromSecs 18446744073709551615)).run.run.run
        T.handler 0 = (.error .overflow, 1)) ∧
      ¬ T.Verdict "eth0" (.fromSecs 18446744073709551615) := by
  -- the DISCOVER of 02:00:00:00:00:01, as it is sent
  obtain ⟨P, hP⟩ := exists_codec (discover ⟨#[2, 0, 0, 0, 0, 1], rfl⟩ 0x11223344)
    ([1, 1, 6, 0, 0x11, 0x22, 0x33, 0x44, 0, 0, 0x80, 0] ++ List.replicate 16 0 ++
      [2, 0, 0, 0, 0, 1] ++ List.replicate 202 0 ++
      [0x63, 0x82, 0x53, 0x63, 53, 1, 1, 55, 3, 1, 3, 6, 255])
  obtain ⟨T, -, hstart, hout⟩ := exists_silent hP
  have hfit : ¬ Fits T.start.ticks (Duration.fromSecs 18446744073709551615) := by
    have hsum : UInt64.toNat 18446744073709551615 = 2 ^ 64 - 1 := by decide +kernel
    rw [fits_fromSecs]
    omega
  exact ⟨P, _, T, hstart, hout, T.run_overflow _ _ hfit, T.not_verdict _ hfit⟩

end Probe
end Micronet
