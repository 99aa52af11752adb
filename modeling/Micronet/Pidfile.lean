import Mathlib.Logic.Relation
import Micronet.NetOps

/-!
# A process owned by its pidfile

`stopIn` reads the pid once and then asks, twice, whether the pidfile names a process of
`bin`.  Each time the pidfile and the command line are read again, so between its calls
processes may exit and start and the pidfile may come to name another of them.
`StopsOwn` says of the calls of a run that only processes of `bin` are signalled and that
the pidfile of none that was not signalled is removed; `stopIn_stopsOwn_iff` says when it
holds of a run in which the pidfile never comes to name another pid.
-/
namespace Micronet
open Interaction Prog RustText

/-- What a file holds. -/
inductive Contents
  | text (s : String)
  /-- Not UTF-8. -/
  | bytes (b : List UInt8)
deriving DecidableEq

/-! ## Command lines -/

/-- `DNSMASQ_BIN`. -/
def dnsmasqBin : String := "/usr/sbin/dnsmasq"

/-- The `file_name` of `bin`, or else `bin`. -/
def binName (bin : List Char) : List Char := (fileName bin).getD bin

/-- `binName`, pushed on `/`. -/
def binSuffix (bin : List Char) : List Char :=
  if (binName bin).head? = some '/' then binName bin else '/' :: binName bin

/-- One argument of a command line. -/
def argMatches (bin : String) (part : List UInt8) : Bool :=
  if part = [] then false
  else
    let text := fromUtf8Lossy part
    text = bin.toList || text = binName bin.toList || (binSuffix bin.toList).isSuffixOf text

def cmdlineMatches (cmdline : List UInt8) (bin : String) : Bool :=
  if cmdline = [] then false else (cmdline.splitOn 0).any (argMatches bin)

/-- The program's own name. -/
def argv0 (cmdline : List UInt8) : List UInt8 := (cmdline.splitOn 0).headD []

/-- What follows the last slash. -/
def baseName (path : List Char) : List Char := (path.reverse.takeWhile (· != '/')).reverse

theorem takeWhile_slash_eq_iff {r n : List Char} (hn : '/' ∉ n) :
    r.takeWhile (· != '/') = n ↔ r = n ∨ n ++ ['/'] <+: r := by
  induction r generalizing n with
  | nil =>
    rw [List.takeWhile_nil, List.prefix_nil, List.append_eq_nil_iff]
    simp
  | cons c r ih =>
    rw [List.takeWhile_cons]
    -- the first slash of the reversed path ends its base name
    by_cases hc : c = '/'
    · subst hc
      cases n with
      | nil => simp
      | cons d n =>
        have hd : d ≠ '/' := fun h => hn (h ▸ List.mem_cons_self)
        simp [hd, hd.symm]
    · rw [if_pos (bne_iff_ne.mpr hc)]
      cases n with
      | nil => simp [Ne.symm hc]
      | cons d n =>
        have hn' : '/' ∉ n := fun h => hn (List.mem_cons_of_mem d h)
        rw [List.cons.injEq, List.cons.injEq, ih hn', List.cons_append, List.cons_prefix_cons]
        tauto

theorem baseName_eq_iff {path name : List Char} (hn : '/' ∉ name) :
    baseName path = name ↔ path = name ∨ '/' :: name <:+ path := by
  have hrev : '/' ∉ name.reverse := fun h => hn (List.mem_reverse.mp h)
  rw [baseName, List.reverse_eq_iff, takeWhile_slash_eq_iff hrev, List.reverse_inj,
    ← List.reverse_cons, List.reverse_prefix]

/-- **An argument matches** when it is `bin`, as the full path or by its base name. -/
theorem argMatches_iff {bin : String} (hbin : '/' ∉ binName bin.toList) {part : List UInt8} :
    argMatches bin part ↔ part ≠ [] ∧
      (fromUtf8Lossy part = bin.toList ∨ baseName (fromUtf8Lossy part) = binName bin.toList) := by
  have hsuffix : binSuffix bin.toList = '/' :: binName bin.toList :=
    if_neg fun h => hbin (List.mem_of_mem_head? h)
  rw [baseName_eq_iff hbin, argMatches, hsuffix]
  by_cases hpart : part = [] <;> simp [hpart, or_assoc]

/-- A program that matches by its own name matches. -/
theorem cmdlineMatches_of_argv0 {cmdline : List UInt8} {bin : String}
    (h : argMatches bin (argv0 cmdline)) : cmdlineMatches cmdline bin := by
  have hne : cmdline ≠ [] := by
    rintro rfl
    cases h
  rw [cmdlineMatches, if_neg hne, List.any_eq_true]
  refine ⟨argv0 cmdline, ?_, h⟩
  obtain ⟨arg, args, hsplit⟩ := List.exists_cons_of_ne_nil (List.splitOn_ne_nil 0 cmdline)
  rw [argv0, hsplit]
  exact List.mem_cons_self

/-! ## The functions -/

inductive PidSignal
  | term
  | kill
deriving DecidableEq

inductive PidCall
  /-- `fs::read_to_string` of the pidfile. -/
  | readPidfile
  /-- `fs::read` of `/proc/<pid>/cmdline`. -/
  | readCmdline (pid : Int)
  | kill (pid : Int) (sig : PidSignal)
  | sleep (d : Duration)
  /-- `fs::remove_file` of the pidfile. -/
  | removePidfile
deriving DecidableEq

abbrev PidCall.Ret : PidCall → Type
  | .readPidfile => Except Error String
  | .readCmdline _ => Except Error (List UInt8)
  | .kill _ _ | .removePidfile => Except Error Unit
  | .sleep _ => Unit

abbrev PidSig : Signature := ⟨PidCall, PidCall.Ret⟩

abbrev PidCall.make (c : PidCall) : Prog PidSig c.Ret := call (S := PidSig) c

/-- The pid a pidfile's text names. -/
def pidOf (text : String) : Option Int :=
  (parseI32 (trim text.toList)).filter (0 < ·)

def readPid : Prog PidSig (Option Int) := do
  match ← PidCall.readPidfile.make with
  | .ok text => return pidOf text
  | .error _ => return none

def isAliveIn (bin : String) : Prog PidSig Bool := do
  match ← readPid with
  | none => return false
  | some pid =>
    match ← (PidCall.readCmdline pid).make with
    | .ok cmdline => return cmdlineMatches cmdline bin
    -- `unwrap_or_default`
    | .error _ => return cmdlineMatches [] bin

def stopIn (bin : String) (termWait : Duration) : Prog PidSig (Except Error Unit) := do
  match ← readPid with
  | none =>
    let _ ← PidCall.removePidfile.make
    return .ok ()
  | some pid =>
    if ← isAliveIn bin then
      let _ ← (PidCall.kill pid .term).make
      (PidCall.sleep termWait).make
      (if ← isAliveIn bin then do
        let _ ← (PidCall.kill pid .kill).make
      else Pure.pure ())
      let _ ← PidCall.removePidfile.make
      return .ok ()
    else
      let _ ← PidCall.removePidfile.make
      return .ok ()

/-! ## The processes -/

/-- A process; its pid and the time of its start tell it from every other. -/
structure Proc where
  /-- When it started. -/
  since : Nat
  /-- Its arguments, each with a NUL after it, as `/proc/<pid>/cmdline` shows them. -/
  cmdline : List UInt8
deriving DecidableEq

/-- Its own program is `bin`. -/
def Proc.runs (P : Proc) (bin : String) : Bool := argMatches bin (argv0 P.cmdline)

structure PidHost where
  /-- The pidfile, if it exists. -/
  pidfile : Option Contents
  /-- The process of a pid, while it lives. -/
  procs : Int → Option Proc
  /-- The time; every process that lives has started before it. -/
  now : Nat
  since_lt : ∀ {pid P}, procs pid = some P → P.since < now

namespace PidHost

/-- The pid that the pidfile names. -/
def named (s : PidHost) : Option Int :=
  match s.pidfile with
  | some (.text text) => pidOf text
  | _ => none

/-- The live process of `bin` that the pidfile names, with its pid. -/
def own (s : PidHost) (bin : String) : Option (Int × Proc) := do
  let pid ← s.named
  let P ← s.procs pid
  if P.runs bin then some (pid, P) else none

/-- What a call does. -/
def Effect : (c : PidCall) → PidHost → c.Ret → PidHost → Prop
  | .readPidfile, s, r, t => t = s ∧ ∀ text, r = .ok text ↔ s.pidfile = some (.text text)
  | .readCmdline pid, s, r, t =>
    t = s ∧ ∀ cmdline, r = .ok cmdline ↔ (s.procs pid).map Proc.cmdline = some cmdline
  -- a signal may end the process later
  | .kill pid _, s, r, t => t = s ∧ (isErr r ↔ s.procs pid = none)
  | .sleep _, s, _, t => t = s
  | .removePidfile, s, r, t => r = .ok () ∧ t = { s with pidfile := none } ∨ isErr r ∧ t = s

/-! ### Between two calls -/

/-- The process of `pid` is gone. -/
def exit (s : PidHost) (pid : Int) : PidHost where
  pidfile := s.pidfile
  procs := Function.update s.procs pid none
  now := s.now
  since_lt := by
    intro q P h
    by_cases hq : q = pid
    · subst hq
      simp at h
    · rw [Function.update_of_ne hq] at h
      exact s.since_lt h

/-- A new process has `pid`. -/
def start (s : PidHost) (pid : Int) (cmdline : List UInt8) : PidHost where
  pidfile := s.pidfile
  procs := Function.update s.procs pid (some ⟨s.now, cmdline⟩)
  now := s.now + 1
  since_lt := by
    intro q P h
    by_cases hq : q = pid
    · subst hq
      rw [Function.update_self] at h
      obtain rfl := Option.some.inj h
      exact Nat.lt_succ_self _
    · rw [Function.update_of_ne hq] at h
      exact Nat.lt_succ_of_lt (s.since_lt h)

@[simp] theorem exit_procs (s : PidHost) (pid : Int) : (s.exit pid).procs pid = none := by
  simp [exit]

@[simp] theorem start_procs (s : PidHost) (pid : Int) (cmdline : List UInt8) :
    (s.start pid cmdline).procs pid = some ⟨s.now, cmdline⟩ := by
  simp [start]

theorem exit_procs_of_ne {s : PidHost} {pid q : Int} (h : q ≠ pid) :
    (s.exit pid).procs q = s.procs q := by
  simp [exit, h]

theorem start_procs_of_ne {s : PidHost} {pid q : Int} {cmdline : List UInt8} (h : q ≠ pid) :
    (s.start pid cmdline).procs q = s.procs q := by
  simp [start, h]

/-- What may happen at any time. -/
inductive Step (bin : String) : PidHost → PidHost → Prop
  | exit (s : PidHost) (pid : Int) : Step bin s (s.exit pid)
  /-- Any program, on a pid that is free. -/
  | start (s : PidHost) (pid : Int) (cmdline : List UInt8) (hfree : s.procs pid = none) :
    Step bin s (s.start pid cmdline)
  /-- An instance of `bin` writes its pid. -/
  | rewrite (s : PidHost) (text : String) {pid : Int} {P : Proc} (hpid : pidOf text = some pid)
      (hP : s.procs pid = some P) (hruns : P.runs bin) :
    Step bin s { s with pidfile := some (.text text) }

/-- Before the next call, steps of `W`. -/
def env (W : PidHost → PidHost → Prop) : Env PidSig PidHost :=
  fun c s r t => ∃ u, Effect c s r u ∧ Relation.ReflTransGen W u t

/-! ## What a run must keep to -/

/-- A signal: its pid, and the host it is sent on. -/
def killed : Event PidSig PidHost → Option (Int × PidHost)
  | ⟨.kill pid _, s, _⟩ => some (pid, s)
  | _ => none

/-- A check: the host on which a command line is read. -/
def checked : Event PidSig PidHost → Option PidHost
  | ⟨.readCmdline _, s, _⟩ => some s
  | _ => none

/-- A removal of the pidfile: the host it is removed from. -/
def removed : Event PidSig PidHost → Option PidHost
  | ⟨.removePidfile, s, .ok ()⟩ => some s
  | _ => none

/-- Each signal goes to a pid whose program was `bin` at the last check before it. -/
def SignalsOwn (bin : String) (l : Log PidSig PidHost) : Prop :=
  Each (fun p e => ∀ k ∈ killed e, ∃ u ∈ lastOf checked p, ∃ P ∈ u.procs k.1, P.runs bin) l

/-- A pidfile that is removed names no live process of `bin` but one that was signalled. -/
def RemovesOwn (bin : String) (l : Log PidSig PidHost) : Prop :=
  Each (fun p e => ∀ s ∈ removed e, ∀ o ∈ s.own bin,
    ∃ k ∈ p, ∃ v ∈ killed k, v.1 = o.1 ∧ v.2.procs o.1 = some o.2) l

def StopsOwn (bin : String) (l : Log PidSig PidHost) : Prop :=
  SignalsOwn bin l ∧ RemovesOwn bin l

instance {bin : String} {l : Log PidSig PidHost} : Decidable (SignalsOwn bin l) :=
  inferInstanceAs (Decidable (Each _ l))

instance {bin : String} {l : Log PidSig PidHost} : Decidable (RemovesOwn bin l) :=
  inferInstanceAs (Decidable (Each _ l))

/-! ## Runs in which the pidfile names one pid -/

/-- A step after which the pidfile names the same pid; it may have been rewritten. -/
def KeepsPid (bin : String) (s t : PidHost) : Prop := Step bin s t ∧ t.named = s.named

/-- What the pidfile names matches by its own program, if it matches. -/
def Plain (bin : String) (s : PidHost) : Prop :=
  ∀ pid ∈ s.named, ∀ P ∈ s.procs pid, cmdlineMatches P.cmdline bin → P.runs bin

/-- So it is at each check. -/
def ChecksPlain (bin : String) (l : Log PidSig PidHost) : Prop :=
  ∀ e ∈ l, ∀ s ∈ checked e, s.Plain bin

/-- No process of `bin` has started on the pid that the pidfile names between the call before
its removal and that. -/
def Settled (bin : String) (l : Log PidSig PidHost) : Prop :=
  Each (fun p e => ∀ s ∈ removed e, ∀ o ∈ s.own bin,
    ∃ c ∈ p.getLast?, c.pre.procs o.1 = some o.2) l

/-- What stays as time goes by: the pid that is named, and a process that is there was there or
is new. -/
structure Later (s t : PidHost) : Prop where
  /-- The pidfile names the same pid, or none as before. -/
  named : t.named = s.named
  /-- Time does not go back. -/
  now_le : s.now ≤ t.now
  /-- A process was there already, or has started since. -/
  proc : ∀ {pid P}, t.procs pid = some P → s.procs pid = some P ∨ s.now ≤ P.since

section KeepsPid
variable {bin : String} {s t u : PidHost} {pid : Int} {P : Proc} {l : Log PidSig PidHost}
  {e : Event PidSig PidHost}

theorem own_eq_some :
    s.own bin = some (pid, P) ↔ s.named = some pid ∧ s.procs pid = some P ∧ P.runs bin := by
  simp only [own, Option.bind_eq_bind, Option.bind_eq_some_iff, Option.ite_none_right_eq_some,
    Option.some.injEq, Prod.mk.injEq]
  constructor
  · rintro ⟨q, hq, Q, hQ, hruns, rfl, rfl⟩
    exact ⟨hq, hQ, hruns⟩
  · rintro ⟨hpid, hP, hruns⟩
    exact ⟨pid, hpid, P, hP, hruns, rfl, rfl⟩

theorem Later.refl (s : PidHost) : Later s s := ⟨rfl, le_rfl, Or.inl⟩

theorem Later.trans (h : Later s t) (h' : Later t u) : Later s u where
  named := h'.named.trans h.named
  now_le := h.now_le.trans h'.now_le
  proc hP := by
    rcases h'.proc hP with ht | hnew
    · exact h.proc ht
    · exact Or.inr (h.now_le.trans hnew)

/-- What is there before and after has not been away. -/
theorem Later.between (h : Later s t) (h' : Later t u) (hs : s.procs pid = some P)
    (hu : u.procs pid = some P) : t.procs pid = some P := by
  rcases h'.proc hu with ht | hnew
  · exact ht
  · have hlt := s.since_lt hs
    have hle := h.now_le
    omega

theorem KeepsPid.later (h : KeepsPid bin s t) : Later s t := by
  obtain ⟨hstep, hnamed⟩ := h
  cases hstep with
  | exit pid =>
    refine ⟨rfl, le_rfl, fun {q P} hP => Or.inl ?_⟩
    by_cases hq : q = pid
    · subst hq
      rw [exit_procs] at hP
      cases hP
    · exact (exit_procs_of_ne hq).symm.trans hP
  | start pid cmdline hfree =>
    refine ⟨rfl, Nat.le_succ _, fun {q P} hP => ?_⟩
    by_cases hq : q = pid
    · subst hq
      rw [start_procs] at hP
      obtain rfl := Option.some.inj hP
      exact Or.inr le_rfl
    · exact Or.inl ((start_procs_of_ne hq).symm.trans hP)
  | rewrite text hpid hP hruns => exact ⟨hnamed, le_rfl, Or.inl⟩

theorem later_of_steps (h : Relation.ReflTransGen (KeepsPid bin) s t) : Later s t := by
  induction h with
  | refl => exact .refl s
  | tail _ hstep ih => exact ih.trans hstep.later

/-! ### The calls of a run -/

theorem signalsOwn_snoc : SignalsOwn bin (l ++ [e]) ↔ SignalsOwn bin l ∧
    ∀ k ∈ killed e, ∃ u ∈ lastOf checked l, ∃ P ∈ u.procs k.1, P.runs bin := each_snoc

theorem removesOwn_snoc : RemovesOwn bin (l ++ [e]) ↔ RemovesOwn bin l ∧
    ∀ s ∈ removed e, ∀ o ∈ s.own bin,
      ∃ k ∈ l, ∃ v ∈ killed k, v.1 = o.1 ∧ v.2.procs o.1 = some o.2 := each_snoc

theorem settled_snoc : Settled bin (l ++ [e]) ↔ Settled bin l ∧
    ∀ s ∈ removed e, ∀ o ∈ s.own bin, ∃ c ∈ l.getLast?, c.pre.procs o.1 = some o.2 := each_snoc

theorem checksPlain_snoc : ChecksPlain bin (l ++ [e]) ↔ ChecksPlain bin l ∧
    ∀ s ∈ checked e, s.Plain bin := by
  simp [ChecksPlain, or_imp, forall_and]

theorem lastOf_checked_snoc {r : Except Error (List UInt8)} :
    lastOf checked (l ++ [⟨.readCmdline pid, s, r⟩]) = some s := by
  rw [lastOf_append]
  rfl

theorem plain_iff (hpid : s.named = some pid) :
    s.Plain bin ↔ ∀ P ∈ s.procs pid, cmdlineMatches P.cmdline bin → P.runs bin := by
  simp [Plain, hpid]

/-- So far its signals are its own exactly when its checks are plain. -/
def Told (bin : String) (l : Log PidSig PidHost) : Prop := SignalsOwn bin l ↔ ChecksPlain bin l

theorem told_nil : Told bin [] := iff_of_true each_nil fun _ h => nomatch h

theorem Told.look (h : Told bin l) (hk : killed e = none) (hc : checked e = none) :
    Told bin (l ++ [e]) := by
  unfold Told at h ⊢
  rw [signalsOwn_snoc, checksPlain_snoc, hk, hc, h]
  simp

/-- A check that finds nothing of `bin`, and so is followed by no signal. -/
theorem Told.miss {r : Except Error (List UInt8)} (h : Told bin l) (hpid : s.named = some pid)
    (hdead : ∀ P, s.procs pid = some P → ¬ cmdlineMatches P.cmdline bin) :
    Told bin (l ++ [⟨.readCmdline pid, s, r⟩]) := by
  have hplain : s.Plain bin := (plain_iff hpid).mpr fun P hP hm => absurd hm (hdead P hP)
  unfold Told at h ⊢
  rw [signalsOwn_snoc, checksPlain_snoc, h]
  simp [killed, checked, hplain]

/-- A check, and the signal that follows it. -/
theorem Told.kill (h : Told bin l) (hpid : s.named = some pid) (hP : s.procs pid = some P)
    (hm : cmdlineMatches P.cmdline bin) (r : Except Error (List UInt8)) (sig : PidSignal)
    (t : PidHost) (r' : Except Error Unit) :
    Told bin (l ++ [⟨.readCmdline pid, s, r⟩] ++ [⟨.kill pid sig, t, r'⟩]) := by
  unfold Told at h ⊢
  rw [signalsOwn_snoc, signalsOwn_snoc, checksPlain_snoc, checksPlain_snoc, lastOf_checked_snoc, h]
  simp [killed, checked, plain_iff hpid, hP, hm]

/-- The host on which the pidfile goes on naming its pid. -/
abbrev calm (bin : String) : Env PidSig (PidHost × Log PidSig PidHost) :=
  (env (KeepsPid bin)).logged

/-- **The call rule**: a call acts, and time goes by. -/
theorem wp_act {α : Type} {c : PidCall} {k : c.Ret → Prog PidSig α}
    {Q : α → PidHost × Log PidSig PidHost → Prop}
    (h : ∀ r u t, Effect c s r u → Later u t → wp (calm bin) (k r) Q (t, l ++ [⟨c, s, r⟩])) :
    wp (calm bin) (.call c k) Q (s, l) := by
  rintro r ⟨t, m⟩ ⟨⟨u, hE, hsteps⟩, rfl⟩
  exact h r u t hE (later_of_steps hsteps)

/-- The pid it reads is the one that the pidfile names. -/
theorem wp_readPid :
    wp (calm bin) readPid
      (fun pid t => pid = s.named ∧ Later s t.1 ∧ ∃ r, t.2 = l ++ [⟨.readPidfile, s, r⟩])
      (s, l) := by
  refine wp_act fun r u t ⟨hu, hread⟩ hlater => ?_
  subst hu
  cases r with
  | ok text => exact ⟨by rw [named, (hread text).mp rfl], hlater, _, rfl⟩
  | error e =>
    refine ⟨?_, hlater, _, rfl⟩
    have hnone : ∀ text, u.pidfile ≠ some (.text text) := fun text h => nomatch (hread text).mpr h
    unfold named
    split
    · rename_i text h
      exact absurd h (hnone text)
    · rfl

/-- **A check** of the pid that the pidfile names: it looks at what has it in between. -/
theorem wp_isAliveIn (hpid : s.named = some pid) :
    wp (calm bin) (isAliveIn bin)
      (fun alive t => ∃ r u r', Later s u ∧ Later u t.1 ∧
        t.2 = l ++ [⟨.readPidfile, s, r⟩] ++ [⟨.readCmdline pid, u, r'⟩] ∧
        (alive = true ↔ ∃ P, u.procs pid = some P ∧ cmdlineMatches P.cmdline bin)) (s, l) := by
  unfold isAliveIn
  rw [wp_bind]
  refine wp_mono wp_readPid ?_
  rintro _ ⟨t, m⟩ ⟨rfl, hlater, r, rfl⟩
  rw [hpid]
  refine wp_act fun r' u v ⟨hu, hread⟩ hlater' => ?_
  subst hu
  cases r' with
  | ok cmdline =>
    obtain ⟨P, hP, rfl⟩ := Option.map_eq_some_iff.mp ((hread cmdline).mp rfl)
    refine ⟨r, u, _, hlater, hlater', rfl, fun hm => ⟨P, hP, hm⟩, ?_⟩
    rintro ⟨Q, hQ, hm⟩
    obtain rfl := Option.some.inj (hP.symm.trans hQ)
    exact hm
  | error e =>
    refine ⟨r, u, _, hlater, hlater', rfl, nofun, ?_⟩
    rintro ⟨Q, hQ, -⟩
    have hok := (hread Q.cmdline).mpr (congrArg _ hQ)
    cases hok

/-- The removal, after calls that were none. -/
theorem wp_remove (htold : Told bin l) (hl : ∀ e ∈ l, removed e = none)
    (hown : ∀ q P, s.named = some q → s.procs q = some P → P.runs bin →
      ((∃ k ∈ l, ∃ v ∈ killed k, v.1 = q ∧ v.2.procs q = some P) ↔
        ∃ c ∈ l.getLast?, c.pre.procs q = some P)) :
    wp (calm bin) (do let _ ← PidCall.removePidfile.make; return .ok ())
      (fun (_ : Except Error Unit) t => Told bin t.2 ∧ (RemovesOwn bin t.2 ↔ Settled bin t.2))
      (s, l) := by
  refine wp_act fun r u t _ _ => ⟨htold.look rfl rfl, ?_⟩
  have hremoves : RemovesOwn bin l := each_of_forall fun e he p v hv => by
    rw [hl e he] at hv
    cases hv
  have hsettled : Settled bin l := each_of_forall fun e he p v hv => by
    rw [hl e he] at hv
    cases hv
  rw [removesOwn_snoc, settled_snoc]
  refine and_congr (iff_of_true hremoves hsettled) ?_
  refine forall₂_congr fun v hv => forall₂_congr fun o ho => ?_
  cases r with
  | error e => cases hv
  | ok _ =>
    obtain rfl := Option.some.inj hv
    obtain ⟨hq, hP, hruns⟩ := own_eq_some.mp ho
    exact hown o.1 o.2 hq hP hruns

/-- The removal of a pidfile that names `pid`. -/
theorem wp_removeNamed (hpid : s.named = some pid) (htold : Told bin l)
    (hl : ∀ e ∈ l, removed e = none)
    (hown : ∀ P, s.procs pid = some P → P.runs bin →
      ((∃ k ∈ l, ∃ v ∈ killed k, v.1 = pid ∧ v.2.procs pid = some P) ↔
        ∃ c ∈ l.getLast?, c.pre.procs pid = some P)) :
    wp (calm bin) (do let _ ← PidCall.removePidfile.make; return .ok ())
      (fun (_ : Except Error Unit) t => Told bin t.2 ∧ (RemovesOwn bin t.2 ↔ Settled bin t.2))
      (s, l) := by
  refine wp_remove htold hl fun q P hq hP hruns => ?_
  obtain rfl : pid = q := Option.some.inj (hpid.symm.trans hq)
  exact hown P hP hruns

/-- What a stop does once it has waited: `pid` is all that was signalled, and it was on `a`. -/
theorem wp_stopWaited {a : PidHost} (hpid : s.named = some pid) (hlater : Later a s)
    (htold : Told bin l) (hl : ∀ e ∈ l, removed e = none)
    (hterm : ∀ P, (∃ k ∈ l, ∃ v ∈ killed k, v.1 = pid ∧ v.2.procs pid = some P) ↔
      a.procs pid = some P) :
    wp (calm bin) (do
        (if ← isAliveIn bin then do
          let _ ← (PidCall.kill pid .kill).make
        else Pure.pure ())
        let _ ← PidCall.removePidfile.make
        return .ok ())
      (fun (_ : Except Error Unit) t => Told bin t.2 ∧ (RemovesOwn bin t.2 ↔ Settled bin t.2))
      (s, l) := by
  rw [wp_bind]
  refine wp_mono (wp_isAliveIn hpid) ?_
  rintro alive ⟨y, m⟩ ⟨r, z, r', hsz, hzy, rfl, halive⟩
  have hzpid : z.named = some pid := hsz.named.trans hpid
  have hypid : y.named = some pid := hzy.named.trans hzpid
  have hasked := htold.look (e := ⟨.readPidfile, s, r⟩) rfl rfl
  have haz : Later a z := hlater.trans hsz
  cases alive with
  | false =>
    have hdead : ∀ P, z.procs pid = some P → ¬ cmdlineMatches P.cmdline bin :=
      fun P hP hm => nomatch halive.mpr ⟨P, hP, hm⟩
    refine wp_removeNamed hypid (hasked.miss hzpid hdead)
      (by simpa [removed, or_imp, forall_and] using hl) ?_
    intro P hP hruns
    suffices h : (∃ k ∈ l, ∃ v ∈ killed k, v.1 = pid ∧ v.2.procs pid = some P) ↔
        z.procs pid = some P by simpa [killed, or_and_right, exists_or] using h
    -- what was there when it was signalled and is there now is what the check saw
    rw [hterm]
    constructor
    · exact fun ha => haz.between hzy ha hP
    · exact fun hz => absurd (cmdlineMatches_of_argv0 hruns) (hdead P hz)
  | true =>
    obtain ⟨P', hP', hm⟩ := halive.mp rfl
    refine wp_act fun r₇ y' w hE hyw => ?_
    obtain rfl : y' = y := hE.1
    have hkill := hasked.kill hzpid hP' hm r' .kill y' r₇
    refine wp_removeNamed (hyw.named.trans hypid) hkill
      (by simpa [removed, or_imp, forall_and] using hl) ?_
    intro P hP hruns
    suffices h : (∃ k ∈ l, ∃ v ∈ killed k, v.1 = pid ∧ v.2.procs pid = some P) ∨
        y'.procs pid = some P ↔ y'.procs pid = some P by
      simpa [killed, or_and_right, exists_or] using h
    rw [hterm]
    -- what the SIGTERM went to and lives on, the SIGKILL goes to as well
    exact or_iff_right_of_imp fun ha => (haz.trans hzy).between hyw ha hP

/-- **A stop**: what it signals is its own when its checks are plain, and so is what it removes
when nothing has started since. -/
theorem wp_stopIn {wait : Duration} :
    wp (calm bin) (stopIn bin wait)
      (fun _ t => Told bin t.2 ∧ (RemovesOwn bin t.2 ↔ Settled bin t.2)) (s, []) := by
  unfold stopIn
  rw [wp_bind]
  refine wp_mono wp_readPid ?_
  rintro _ ⟨t, m⟩ ⟨rfl, hlater, r₁, rfl⟩
  have htold : Told bin ([] ++ [⟨.readPidfile, s, r₁⟩]) := told_nil.look rfl rfl
  cases hnamed : s.named with
  | none =>
    -- a pidfile that names nothing has nothing of its own
    refine wp_remove htold (by simp [removed]) fun q P hq _ _ => ?_
    rw [hlater.named, hnamed] at hq
    cases hq
  | some pid =>
    have hpid : t.named = some pid := hlater.named.trans hnamed
    rw [wp_bind]
    refine wp_mono (wp_isAliveIn hpid) ?_
    rintro alive ⟨u, m⟩ ⟨r₂, v, r₃, htv, hvu, rfl, halive⟩
    have hvpid : v.named = some pid := htv.named.trans hpid
    have hupid : u.named = some pid := hvu.named.trans hvpid
    have hasked := htold.look (e := ⟨.readPidfile, t, r₂⟩) rfl rfl
    cases alive with
    | false =>
      have hdead : ∀ P, v.procs pid = some P → ¬ cmdlineMatches P.cmdline bin :=
        fun P hP hm => nomatch halive.mpr ⟨P, hP, hm⟩
      refine wp_removeNamed hupid (hasked.miss hvpid hdead) (by simp [removed]) ?_
      intro P hP hruns
      -- nothing was signalled, and what the last call saw did not match
      refine iff_of_false (by simp [killed]) ?_
      simpa using fun hP => hdead P hP (cmdlineMatches_of_argv0 hruns)
    | true =>
      obtain ⟨P, hP, hm⟩ := halive.mp rfl
      refine wp_act fun r₄ u' w hE huw => ?_
      obtain rfl : u' = u := hE.1
      have hterm := hasked.kill hvpid hP hm r₃ .term u' r₄
      refine wp_act fun _ w' x hE hwx => ?_
      obtain rfl : w' = w := hE
      have hslept := hterm.look (e := ⟨.sleep wait, w', ()⟩) rfl rfl
      have hlater' : Later u' x := huw.trans hwx
      exact wp_stopWaited (hlater'.named.trans hupid) hlater' hslept (by simp [removed])
        (by simp [killed])

end KeepsPid

/-! ### Runs that are computed -/

/-- The answer of a call that succeeds where it can. -/
def answer (s : PidHost) : (c : PidCall) → c.Ret
  | .readPidfile =>
    match s.pidfile with
    | some (.text text) => .ok text
    | _ => .error (.other "No such file or directory (os error 2)")
  | .readCmdline pid =>
    match s.procs pid with
    | some P => .ok P.cmdline
    | none => .error (.other "No such file or directory (os error 2)")
  | .kill pid _ =>
    match s.procs pid with
    | some _ => .ok ()
    | none => .error (.other "ESRCH: No such process")
  | .sleep _ => ()
  | .removePidfile => .ok ()

/-- The host on which calls succeed, and `meanwhile` happens in a sleep. -/
def handler (meanwhile : PidHost → PidHost) : Handler PidSig PidHost := fun c s =>
  (s.answer c,
    match c with
    | .sleep _ => meanwhile s
    | .removePidfile => { s with pidfile := none }
    | _ => s)

theorem handler_implements {W : PidHost → PidHost → Prop} {meanwhile : PidHost → PidHost}
    (hW : ∀ s, Relation.ReflTransGen W s (meanwhile s)) :
    (handler meanwhile).Implements (env W) := by
  intro c s
  cases c with
  | readPidfile =>
    refine ⟨s, ⟨rfl, fun text => ?_⟩, .refl⟩
    rcases hfile : s.pidfile with _ | _ | _ <;> simp [handler, answer, hfile]
  | readCmdline pid =>
    refine ⟨s, ⟨rfl, fun cmdline => ?_⟩, .refl⟩
    cases hP : s.procs pid <;> simp [handler, answer, hP]
  | kill pid sig =>
    refine ⟨s, ⟨rfl, ?_⟩, .refl⟩
    cases hP : s.procs pid <;> simp [handler, answer, hP]
  | sleep d => exact ⟨s, rfl, hW s⟩
  | removePidfile => exact ⟨_, Or.inl ⟨rfl, rfl⟩, .refl⟩

instance {bin : String} {s : PidHost} : Decidable (s.Plain bin) :=
  inferInstanceAs (Decidable (∀ pid ∈ s.named, ∀ P ∈ s.procs pid,
    cmdlineMatches P.cmdline bin → P.runs bin))

instance {bin : String} {l : Log PidSig PidHost} : Decidable (ChecksPlain bin l) :=
  inferInstanceAs (Decidable (∀ e ∈ l, ∀ s ∈ checked e, s.Plain bin))

instance {bin : String} {l : Log PidSig PidHost} : Decidable (Settled bin l) :=
  inferInstanceAs (Decidable (Each _ l))

/-- **A stop keeps to its own**, in every run in which the pidfile does not come to name another
pid, exactly when what its checks find matches by its own program and nothing of `bin` starts on
the pid between the last check or signal and the removal.  The pidfile may hold anything at the
start and be rewritten with the same pid (`KeepsPid`); processes end and start, pids are used
again, and signals are ignored. -/
theorem stopIn_stopsOwn_iff {bin : String} {wait : Duration} {s t : PidHost}
    {r : Except Error Unit} {l : Log PidSig PidHost}
    (h : (stopIn bin wait).Exec (env (KeepsPid bin)).logged (s, []) r (t, l)) :
    StopsOwn bin l ↔ ChecksPlain bin l ∧ Settled bin l := by
  have hpost := wp_iff.mp wp_stopIn r (t, l) h
  exact and_congr hpost.1 hpost.2

/-- A command line. -/
def cmdlineOf (args : List String) : List UInt8 :=
  args.flatMap fun arg => arg.toUTF8.data.toList ++ [0]

/-- dnsmasq runs with pid 311, which is in the pidfile. -/
def pidHost : PidHost where
  pidfile := some (.text "311\n")
  procs := fun pid => if pid = 311 then some ⟨0, cmdlineOf [dnsmasqBin, "-C"]⟩ else none
  now := 1
  since_lt := by
    intro pid P h
    obtain ⟨-, h⟩ := Option.ite_none_right_eq_some.mp h
    obtain rfl := Option.some.inj h
    exact Nat.one_pos

/-- Its stop, with what happens after the first signal. -/
def stopped (meanwhile : PidHost → PidHost) : Log PidSig PidHost :=
  ((stopIn dnsmasqBin (400 * 10 ^ 6)).run (handler meanwhile).logged (pidHost, [])).2.2

/-- When it exits, all is well. -/
theorem exited_stopsOwn : StopsOwn dnsmasqBin (stopped fun s => s.exit 311) := by
  have himpl : (handler fun s => s.exit 311).Implements (env (KeepsPid dnsmasqBin)) :=
    handler_implements fun s => .single ⟨.exit s 311, rfl⟩
  exact (stopIn_stopsOwn_iff (himpl.logged.exec (stopIn dnsmasqBin (400 * 10 ^ 6))
    (pidHost, []))).mpr ⟨by decide, by decide⟩

/-! ### An instance that starts in between -/

/-- It exits, a shell gets its pid, and a new instance writes the pidfile. -/
def restart (s : PidHost) : PidHost :=
  let s := (s.exit 311).start 311 (cmdlineOf ["/bin/sh"])
  let s := (s.exit 4242).start 4242 (cmdlineOf [dnsmasqBin, "-C"])
  { s with pidfile := some (.text "4242\n") }

theorem steps_replace {bin : String} (s : PidHost) (pid : Int) (cmdline : List UInt8) :
    Relation.ReflTransGen (Step bin) s ((s.exit pid).start pid cmdline) :=
  (Relation.ReflTransGen.single (.exit s pid)).tail (.start _ pid cmdline (exit_procs s pid))

theorem steps_restart (s : PidHost) : Relation.ReflTransGen (Step dnsmasqBin) s s.restart := by
  have hsteps : Relation.ReflTransGen (Step dnsmasqBin) s _ :=
    (steps_replace s 311 (cmdlineOf ["/bin/sh"])).trans
      (steps_replace _ 4242 (cmdlineOf [dnsmasqBin, "-C"]))
  have hpid : pidOf "4242\n" = some 4242 := by decide
  have hruns : argMatches dnsmasqBin (argv0 (cmdlineOf [dnsmasqBin, "-C"])) = true := by decide
  exact hsteps.tail (.rewrite _ "4242\n" hpid (start_procs _ 4242 _) hruns)

/-- **The shell is killed, and the pidfile of the new instance removed**, while that runs on. -/
theorem restarted_kills_foreign :
    (∃ r t, (stopIn dnsmasqBin (400 * 10 ^ 6)).Exec (env (Step dnsmasqBin)).logged (pidHost, []) r
      (t, stopped restart)) ∧
      ¬ SignalsOwn dnsmasqBin (stopped restart) ∧ ¬ RemovesOwn dnsmasqBin (stopped restart) :=
  ⟨⟨_, _, (handler_implements steps_restart).logged.exec
    (stopIn dnsmasqBin (400 * 10 ^ 6)) (pidHost, [])⟩, by decide, by decide⟩

end PidHost
end Micronet
