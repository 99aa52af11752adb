import Micronet.Pidfile
import Micronet.Simulation
import Micronet.Weakest

/-!
# A pidfile among the processes of a host

The functions of `pidfile` go by one file and by the command lines of `/proc`.  A `PidTable`
is what they see: the file, and the processes by their pids, of any kind that has a command
line.  `PidTable.Effect` says what each of their calls does with it; a signal ends the process
or not, except that SIGKILL always does.

`isAliveIn` reads the file and then a command line, so what it answers is about the pid of one
moment and the process of a later one (`PidTable.Reads.wp_isAliveIn`).  A stop is one program
over every host that has such a table; `PidTable.Stops.wp_stopIn` is its rule.
-/
namespace Micronet
open Interaction Prog RustText

/-- `PROCESS_TERM_WAIT`: how long a process has to end of a SIGTERM. -/
def processTermWait : Duration := 400 * 10 ^ 6

/-- A pidfile, and the processes of its host. -/
structure PidTable (π : Type) where
  /-- What the pidfile holds, if it exists. -/
  pidfile : Option Contents
  /-- The process that has a pid, while it lives. -/
  procs : Int → Option π

namespace PidTable
variable {π σ : Type}

/-- The pid that the pidfile names. -/
def named (s : PidTable π) : Option Int :=
  match s.pidfile with
  | some (.text text) => pidOf text
  | _ => none

/-- The pid is free. -/
def exit (s : PidTable π) (pid : Int) : PidTable π :=
  { s with procs := Function.update s.procs pid none }

@[simp] theorem exit_pidfile (s : PidTable π) (pid : Int) : (s.exit pid).pidfile = s.pidfile := rfl

@[simp] theorem exit_named (s : PidTable π) (pid : Int) : (s.exit pid).named = s.named := rfl

@[simp] theorem exit_procs (s : PidTable π) (pid : Int) : (s.exit pid).procs pid = none :=
  Function.update_self ..

theorem exit_procs_of_ne {s : PidTable π} {pid q : Int} (h : q ≠ pid) :
    (s.exit pid).procs q = s.procs q := Function.update_of_ne h ..

section Calls
variable (cmd : π → List UInt8)

/-- **What a call does.**  The file and a command line can be read exactly if they are there.
SIGTERM may end the process that has the pid, and SIGKILL does; the answer to a signal is not
said.  The file may be impossible to remove. -/
def Effect : (c : PidCall) → PidTable π → c.Ret → PidTable π → Prop
  | .readPidfile, s, r, t => t = s ∧ ∀ text, r = .ok text ↔ s.pidfile = some (.text text)
  | .readCmdline pid, s, r, t =>
    t = s ∧ ∀ cmdline, r = .ok cmdline ↔ (s.procs pid).map cmd = some cmdline
  | .kill pid sig, s, _, t => t = s.exit pid ∨ sig = .term ∧ t = s
  | .sleep _, s, _, t => t = s
  | .removePidfile, s, r, t => r = .ok () ∧ t = { s with pidfile := none } ∨ isErr r ∧ t = s

/-- The answer where all goes well and a signal ends the process, and what it leaves. -/
def respond : Handler PidSig (PidTable π)
  | .readPidfile, s =>
    match s.pidfile with
    | some (.text text) => (.ok text, s)
    | _ => (.error (.other "No such file or directory (os error 2)"), s)
  | .readCmdline pid, s =>
    match s.procs pid with
    | some P => (.ok (cmd P), s)
    | none => (.error (.other "No such file or directory (os error 2)"), s)
  | .kill pid _, s => (.ok (), s.exit pid)
  | .sleep _, s => ((), s)
  | .removePidfile, s => (.ok (), { s with pidfile := none })

theorem effect_respond (c : PidCall) (s : PidTable π) :
    Effect cmd c s (respond cmd c s).1 (respond cmd c s).2 := by
  cases c with
  | readPidfile =>
    rcases hfile : s.pidfile with _ | _ | _ <;> simp [respond, Effect, hfile]
  | readCmdline pid =>
    cases hP : s.procs pid <;> simp [respond, Effect, hP]
  | _ => simp [respond, Effect]

/-- The process that the pidfile names has a command line that matches. -/
def alive (bin : String) (s : PidTable π) : Bool :=
  s.named.any fun pid => (s.procs pid).any fun P => cmdlineMatches (cmd P) bin

theorem alive_iff {bin : String} {s : PidTable π} : s.alive cmd bin = true ↔
    ∃ pid P, s.named = some pid ∧ s.procs pid = some P ∧ cmdlineMatches (cmd P) bin := by
  simp only [alive, Option.any_eq_true]
  constructor
  · rintro ⟨pid, hpid, P, hP, hm⟩
    exact ⟨pid, P, hpid, hP, hm⟩
  · rintro ⟨pid, P, hpid, hP, hm⟩
    exact ⟨pid, hpid, P, hP, hm⟩

/-- Freeing a pid takes it from a pidfile that names it, and from no other. -/
theorem alive_exit_iff {bin : String} {s : PidTable π} {pid : Int} :
    (s.exit pid).alive cmd bin = true ↔ s.named ≠ some pid ∧ s.alive cmd bin = true := by
  rw [alive_iff, alive_iff, exit_named]
  constructor
  · rintro ⟨q, P, hq, hP, hm⟩
    have hne : q ≠ pid := by
      rintro rfl
      rw [exit_procs] at hP
      cases hP
    rw [exit_procs_of_ne hne] at hP
    exact ⟨fun h => hne (Option.some.inj (hq.symm.trans h)), q, P, hq, hP, hm⟩
  · rintro ⟨hnot, q, P, hq, hP, hm⟩
    have hne : q ≠ pid := fun h => hnot (h ▸ hq)
    exact ⟨q, P, hq, (exit_procs_of_ne hne).trans hP, hm⟩

theorem alive_of_none {bin : String} {s : PidTable π} (h : s.pidfile = none) :
    s.alive cmd bin = false := by
  simp [alive, named, h]

/-- **How an environment lets the functions look** at the table `f` of its states: `W` may
happen before a call and `V` after it. -/
structure Reads (E : Env PidSig σ) (f : σ → PidTable π) (W V : σ → σ → Prop)
    (C : Int → σ → Prop) : Prop where
  /-- Nothing need happen between two calls. -/
  before : ∀ s, W s s
  after : ∀ s, V s s
  /-- The pidfile is read as it is in between. -/
  pidfile : ∀ s r t, E .readPidfile s r t →
    ∃ u, W s u ∧ V u t ∧ ∀ text, r = .ok text ↔ (f u).pidfile = some (.text text)
  /-- So is a command line, and `C` is known of the pid whose it is. -/
  cmdline : ∀ pid s r t, E (.readCmdline pid) s r t →
    ∃ u, W s u ∧ V u t ∧ C pid u ∧
      ∀ cmdline, r = .ok cmdline ↔ ((f u).procs pid).map cmd = some cmdline

variable {cmd} {E : Env PidSig σ} {f : σ → PidTable π} {W V : σ → σ → Prop}
  {C : Int → σ → Prop} {bin : String} {s : σ}

/-- The pid it reads is the one that the pidfile names. -/
theorem Reads.wp_readPid (h : Reads cmd E f W V C) :
    wp E readPid (fun pid t => ∃ u, W s u ∧ V u t ∧ pid = (f u).named) s := by
  intro r t hread
  obtain ⟨u, hsu, hut, hfile⟩ := h.pidfile s r t hread
  cases r with
  | ok text => exact ⟨u, hsu, hut, by rw [named, (hfile text).mp rfl]⟩
  | error e =>
    refine ⟨u, hsu, hut, ?_⟩
    have hnone : ∀ text, (f u).pidfile ≠ some (.text text) :=
      fun text htext => nomatch (hfile text).mpr htext
    unfold named
    split
    · rename_i text htext
      exact absurd htext (hnone text)
    · rfl

/-- **A check** is about the pid that the file names first, and about the process that has it
when the command line is read. -/
theorem Reads.wp_isAliveIn (h : Reads cmd E f W V C) :
    wp E (isAliveIn bin) (fun alive t => ∃ u u' v, W s u ∧ V u u' ∧ W u' v ∧ V v t ∧
      (∀ pid, (f u).named = some pid → C pid v) ∧
      (alive = true ↔ ∃ pid P, (f u).named = some pid ∧ (f v).procs pid = some P ∧
        cmdlineMatches (cmd P) bin)) s := by
  unfold isAliveIn
  rw [wp_bind]
  refine wp_mono h.wp_readPid ?_
  rintro _ u' ⟨u, hsu, huu', rfl⟩
  cases hnamed : (f u).named with
  | none =>
    exact ⟨u, u', u', hsu, huu', h.before u', h.after u', by simp [hnamed], by simp [hnamed]⟩
  | some pid =>
    intro r t hread
    obtain ⟨v, huv, hvt, hC, hcmdline⟩ := h.cmdline pid u' r t hread
    have hC' : ∀ q, (f u).named = some q → C q v := by simpa [hnamed] using hC
    cases r with
    | ok cmdline =>
      obtain ⟨P, hP, rfl⟩ := Option.map_eq_some_iff.mp ((hcmdline cmdline).mp rfl)
      refine ⟨u, u', v, hsu, huu', huv, hvt, hC', fun hm => ⟨pid, P, hnamed, hP, hm⟩, ?_⟩
      rintro ⟨q, Q, hq, hQ, hm⟩
      obtain rfl := Option.some.inj (hnamed.symm.trans hq)
      obtain rfl := Option.some.inj (hP.symm.trans hQ)
      exact hm
    | error e =>
      refine ⟨u, u', v, hsu, huu', huv, hvt, hC', by simp [cmdlineMatches], ?_⟩
      rintro ⟨q, Q, hq, hQ, hm⟩
      obtain rfl := Option.some.inj (hnamed.symm.trans hq)
      have hok := (hcmdline (cmd Q)).mpr (congrArg _ hQ)
      cases hok

/-- **What a stop goes by**: `I pid` while it stops `pid`, `A pid` where a check has found it
alive, and `J` where nothing is left to stop. -/
structure Stops (E : Env PidSig σ) (bin : String) (I A : Int → σ → Prop) (J Q : σ → Prop) :
    Prop where
  check : ∀ pid s, I pid s →
    wp E (isAliveIn bin) (fun alive t => if alive then A pid t else J t) s
  /-- SIGTERM may be ignored, SIGKILL cannot. -/
  kill : ∀ pid sig s r t, A pid s → E (.kill pid sig) s r t → I pid t ∧ (sig = .kill → J t)
  sleep : ∀ pid d s r t, I pid s → E (.sleep d) s r t → I pid t
  remove : ∀ s r t, J s → E .removePidfile s r t → Q t

/-- The removal at its end. -/
theorem Stops.wp_remove {I A : Int → σ → Prop} {J Q : σ → Prop} (h : Stops E bin I A J Q)
    (hs : J s) :
    wp E (do let _ ← PidCall.removePidfile.make; return .ok ())
      (fun (r : Except Error Unit) t => r = .ok () ∧ Q t) s :=
  fun r t hremove => ⟨rfl, h.remove s r t hs hremove⟩

/-- **The rule of a stop.** -/
theorem Stops.wp_stopIn {I A : Int → σ → Prop} {J Q : σ → Prop} {wait : Duration}
    (h : Stops E bin I A J Q)
    (hread : wp E readPid (fun o t => (o = none → J t) ∧ ∀ pid, o = some pid → I pid t) s) :
    wp E (stopIn bin wait) (fun r t => r = .ok () ∧ Q t) s := by
  unfold stopIn
  rw [wp_bind]
  refine wp_mono hread ?_
  rintro o t ⟨hnone, hsome⟩
  cases o with
  | none => exact h.wp_remove (hnone rfl)
  | some pid =>
    rw [wp_bind]
    refine wp_mono (h.check pid t (hsome pid rfl)) fun alive u hu => ?_
    cases alive with
    | false => exact h.wp_remove hu
    | true =>
      rw [if_pos rfl, wp_bind]
      intro r v hterm
      rw [wp_ret, wp_bind]
      intro _ w hsleep
      have hw := h.sleep pid wait v _ w (h.kill pid .term u r v hu hterm).1 hsleep
      rw [wp_ret, wp_bind]
      refine wp_mono (h.check pid w hw) fun again x hx => ?_
      cases again with
      | false => exact h.wp_remove hx
      | true =>
        rw [wp_bind, if_pos rfl, wp_bind]
        intro r y hkill
        exact h.wp_remove ((h.kill pid .kill x r y hx hkill).2 rfl)

end Calls
end PidTable
end Micronet
