import Micronet.DhcpConf
import Micronet.Processes

/-!
# The dnsmasq process and its configuration file

Whether a running dnsmasq is restarted is decided by comparing the new text with the
file, not with what the process has read, and whether it runs by its pidfile and a command
line.  `DhcpHost.Current` is why that is enough: a dnsmasq of ours that runs is named by the
pidfile and has read what the conf file holds.  It survives failed writes and starts, signals
and crashes at any moment.

What the pidfile names need not be ours: after a crash another process may have the pid, and
`pidfile::is_alive` takes it for dnsmasq if any of its arguments is, or ends in `/`, the name.
A reload can then succeed where no dnsmasq runs (`mistaken_not_loaded`).  As long as each
process that is looked at and matches is our own (`DhcpHost.Genuine`), dnsmasq has read the text
of every reload that succeeds (`reload_is_loaded`).
-/
namespace Micronet
open Interaction Prog

/-- The files of dnsmasq under the data root. -/
structure DhcpPaths where
  leasefile : String
  pidfile : String

/-! ## Calls -/

inductive DhcpCall
  /-- `fs::create_dir_all`. -/
  | createDirAll
  /-- `fs::read_to_string` of the conf. -/
  | readConf
  /-- `fs::write` of the conf. -/
  | writeConf (body : String)
  /-- `DNSMASQ_BIN` is a file. -/
  | binIsFile
  /-- What `pidfile` asks for, of our pidfile; `start` removes that file itself. -/
  | pid (c : PidCall)
  /-- `dnsmasq -C conf -x pidfile`, up to its exit code; there is none after a signal. -/
  | spawn
  /-- `kill(pid, SIGHUP)`. -/
  | hangup (pid : Int)
  | sleep (d : Duration)
deriving DecidableEq

abbrev DhcpCall.Ret : DhcpCall → Type
  | .createDirAll | .writeConf _ | .hangup _ => Except Error Unit
  | .readConf => Except Error String
  | .binIsFile => Bool
  | .pid c => c.Ret
  | .spawn => Except Error (Option Int)
  | .sleep _ => Unit

abbrev DhcpSig : Signature := ⟨DhcpCall, DhcpCall.Ret⟩

abbrev DhcpM (α : Type) : Type := ExceptT Error (Prog DhcpSig) α

abbrev DhcpCall.make (c : DhcpCall) : Prog DhcpSig c.Ret := call (S := DhcpSig) c

/-! ## The functions -/

namespace Dhcp

/-- A call of `pidfile` on `default_dnsmasq_pidfile()`. -/
def ofPid (c : PidCall) : Prog DhcpSig c.Ret := (DhcpCall.pid c).make

/-- `pidfile::is_alive`. -/
def isRunning : Prog DhcpSig Bool := (isAliveIn dnsmasqBin).inline ofPid

/-- `pidfile::read_pid`. -/
def namedPid : Prog DhcpSig (Option Int) := readPid.inline ofPid

/-- Start dnsmasq if it is not running. -/
def start : DhcpM Unit := do
  if ← DhcpCall.binIsFile.make then
    if ← isRunning then
      return ()
    else
      attempt DhcpCall.createDirAll.make
      let alive ← isRunning
      (if alive then pure () else do
        let _ ← (liftM (ofPid .removePidfile) : DhcpM (Except Error Unit)))
      let status ← attempt DhcpCall.spawn.make
      if status = some 0 then return ()
      else throw (.other s!"dnsmasq exited {status.getD (-1)}")
  else
    throw (.dnsmasqMissing dnsmasqBin)

/-- `pidfile::stop`. -/
def stop : DhcpM Unit := attempt ((stopIn dnsmasqBin processTermWait).inline ofPid)

def sighup : DhcpM Unit := do
  match ← namedPid with
  | none => throw (.other "dnsmasq not running")
  | some pid =>
    if ← isRunning then
      attempt (DhcpCall.hangup pid).make
    else
      throw (.other "dnsmasq not running")

/-- How long dnsmasq has to die of a signal. -/
def sighupWait : Duration := 150 * 10 ^ 6

def reloadOrRestart (confChanged : Bool) : DhcpM Unit := do
  if ← isRunning then
    if confChanged then
      stop
      start
    else
      match ← (liftM sighup.run : DhcpM (Except Error Unit)) with
      | .ok () =>
        let _ ← (DhcpCall.sleep sighupWait).make
        if ← isRunning then
          return ()
        else
          start
      | .error _ =>
        stop
        start
  else
    start

/-- Write the conf if its contents changed; `true` when it was written. -/
def ensureConf (body : String) : DhcpM Bool := do
  attempt DhcpCall.createDirAll.make
  let read ← (liftM DhcpCall.readConf.make : DhcpM (Except Error String))
  -- `unwrap_or_default`
  let prev := match read with
    | .ok text => text
    | .error _ => ""
  if prev = body then
    return false
  else
    attempt (DhcpCall.writeConf body).make
    return true

end Dhcp

/-- `LiveGateway::dhcp_reload_or_restart`. -/
def dhcpReloadOrRestart (paths : DhcpPaths) (cfg : Config) (iface : String) : DhcpM Unit := do
  let _ ← (liftM DhcpCall.createDirAll.make : DhcpM (Except Error Unit))
  let changed ← Dhcp.ensureConf (renderConf cfg iface paths.leasefile paths.pidfile)
  Dhcp.reloadOrRestart changed

/-! ## The host -/

/-- A process of the host, which may be a dnsmasq that `start` has started. -/
structure DhcpProc where
  cmdline : List UInt8
  /-- What it read at its start, if it is a dnsmasq of ours; nothing of ours otherwise. -/
  loaded : Option Contents
  /-- A dnsmasq of ours runs under its own name. -/
  runs : loaded.isSome → argMatches dnsmasqBin (argv0 cmdline)

/-- The conf file, the pidfile and the processes. -/
structure DhcpHost extends PidTable DhcpProc where
  /-- The conf file, if it exists. -/
  conf : Option Contents

namespace DhcpHost

/-- A dnsmasq of ours runs as `pid`, and has read `c` at its start. -/
def Runs (s : DhcpHost) (pid : Int) (c : Contents) : Prop :=
  ∃ P, s.procs pid = some P ∧ P.loaded = some c

/-- None of ours runs. -/
def Down (s : DhcpHost) : Prop := ∀ pid c, ¬ s.Runs pid c

/-- One of ours runs, and it has read `c`. -/
def Serving (s : DhcpHost) (c : Contents) : Prop :=
  ∃ pid, ∀ q d, s.Runs q d ↔ q = pid ∧ d = c

/-- `pid` is free. -/
def exit (s : DhcpHost) (pid : Int) : DhcpHost := { s with toPidTable := s.toPidTable.exit pid }

/-- `P` has `pid`. -/
def spawned (s : DhcpHost) (pid : Int) (P : DhcpProc) : DhcpHost :=
  { s with procs := Function.update s.procs pid (some P) }

/-- **What a call does.**  A write of the conf completes or changes nothing.  A start that
succeeds leaves a new dnsmasq that has read the conf and is named by the pidfile; one that fails
may still have written the pidfile.  SIGHUP makes dnsmasq read nothing that is looked at here. -/
def Effect : (c : DhcpCall) → DhcpHost → c.Ret → DhcpHost → Prop
  | .readConf, s, r, t => t = s ∧ ∀ text, r = .ok text → s.conf = some (.text text)
  | .writeConf body, s, r, t =>
    r = .ok () ∧ t = { s with conf := some (.text body) } ∨ isErr r ∧ t = s
  | .pid c, s, r, t =>
    PidTable.Effect DhcpProc.cmdline c s.toPidTable r t.toPidTable ∧ t.conf = s.conf
  | .spawn, s, r, t =>
    (∃ pid P text, r = .ok (some 0) ∧ s.conf.isSome ∧ P.loaded = s.conf ∧ s.procs pid = none ∧
      pidOf text = some pid ∧ t = { s.spawned pid P with pidfile := some (.text text) }) ∨
      r ≠ .ok (some 0) ∧ t = { s with pidfile := t.pidfile }
  | .createDirAll, s, _, t | .binIsFile, s, _, t | .hangup _, s, _, t | .sleep _, s, _, t => t = s

/-- **What may happen at any time**: processes end and others start, on any free pid and with any
command line. -/
inductive Drift : DhcpHost → DhcpHost → Prop
  | exit (s : DhcpHost) (pid : Int) : Drift s (s.exit pid)
  /-- A dnsmasq of ours that ends may take the pidfile with it. -/
  | leave (s : DhcpHost) {pid : Int} {c : Contents} (h : s.Runs pid c) :
    Drift s { s.exit pid with pidfile := none }
  | start (s : DhcpHost) (pid : Int) (P : DhcpProc) (hfree : s.procs pid = none)
    (hforeign : P.loaded = none) : Drift s (s.spawned pid P)

/-- Any number of such steps. -/
abbrev Drifts : DhcpHost → DhcpHost → Prop := Relation.ReflTransGen Drift

/-- The host, where calls are made only when `C` holds.  Anything may happen before each. -/
def env (C : DhcpCall → DhcpHost → Prop) : Env DhcpSig DhcpHost :=
  fun c s r t => ∃ u, s.Drifts u ∧ C c u ∧ Effect c u r t

/-- **What is taken for dnsmasq is ours**: a process whose command line is read and matches was
started by `start`. -/
def Genuine : DhcpCall → DhcpHost → Prop
  | .pid (.readCmdline pid), s =>
    ∀ P, s.procs pid = some P → cmdlineMatches P.cmdline dnsmasqBin → P.loaded.isSome
  | _, _ => True

/-! ## What is known of a host -/

/-- The pidfile names what runs. -/
def Named (s : DhcpHost) : Prop := ∀ pid c, s.Runs pid c → s.named = some pid

/-- **What runs has read the file**, and the pidfile names it. -/
structure Current (s : DhcpHost) : Prop where
  /-- The pidfile names every dnsmasq of ours. -/
  named : s.Named
  /-- The conf is the text that each has read. -/
  conf : ∀ pid c, s.Runs pid c → s.conf = some c

/-- None runs, and the file holds `body`. -/
def Ready (body : String) (s : DhcpHost) : Prop := s.conf = some (.text body) ∧ s.Down

/-- The file holds `body`, and so has what runs. -/
def Holds (body : String) (s : DhcpHost) : Prop := s.Current ∧ s.conf = some (.text body)

/-- dnsmasq runs on `body`. -/
def Serves (body : String) (s : DhcpHost) : Prop := s.Holds body ∧ ¬ s.Down

/-- Time does not change it. -/
def Survives (I : DhcpHost → Prop) : Prop := ∀ s t, I s → s.Drifts t → I t

section Known
variable {s t : DhcpHost} {body : String} {pid q : Int} {c d : Contents}

/-- One of ours is found by its command line. -/
theorem Runs.matches (h : s.Runs pid c) :
    ∃ P, s.procs pid = some P ∧ cmdlineMatches P.cmdline dnsmasqBin := by
  obtain ⟨P, hP, hc⟩ := h
  refine ⟨P, hP, cmdlineMatches_of_argv0 (P.runs ?_)⟩
  rw [hc]
  rfl

/-- A removal of the pidfile ends no process, and starts none. -/
theorem Runs.of_remove {r : Except Error Unit} (h : t.Runs pid c)
    (htable : PidTable.Effect DhcpProc.cmdline .removePidfile s.toPidTable r t.toPidTable) :
    s.Runs pid c := by
  obtain ⟨P, hP, hc⟩ := h
  refine ⟨P, ?_, hc⟩
  rcases htable with ⟨-, htable⟩ | ⟨-, htable⟩
  · rw [htable] at hP
    exact hP
  · rw [htable] at hP
    exact hP

theorem exit_runs : (s.exit pid).Runs q c ↔ q ≠ pid ∧ s.Runs q c := by
  unfold Runs DhcpHost.exit
  by_cases hq : q = pid
  · subst hq
    simp
  · simp [hq, PidTable.exit_procs_of_ne hq]

theorem spawned_runs {P : DhcpProc} :
    (s.spawned pid P).Runs q c ↔ q = pid ∧ P.loaded = some c ∨ q ≠ pid ∧ s.Runs q c := by
  unfold Runs spawned
  by_cases hq : q = pid
  · subst hq
    simp
  · simp [hq]

theorem not_down : ¬ s.Down ↔ ∃ pid c, s.Runs pid c := by
  simp [Down]

theorem Named.unique (hs : s.Named) (hp : s.Runs pid c) (hq : s.Runs q d) : q = pid ∧ d = c := by
  obtain rfl := Option.some.inj ((hs q d hq).symm.trans (hs pid c hp))
  obtain ⟨P, hP, hc⟩ := hp
  obtain ⟨Q, hQ, hd⟩ := hq
  obtain rfl := Option.some.inj (hP.symm.trans hQ)
  exact ⟨rfl, Option.some.inj (hd.symm.trans hc)⟩

theorem Down.named (h : s.Down) : s.Named := fun pid c hp => absurd hp (h pid c)

theorem Down.current (h : s.Down) : s.Current := ⟨h.named, fun pid c hp => absurd hp (h pid c)⟩

theorem Ready.current (h : s.Ready body) : s.Current := h.2.current

theorem Serves.serving (h : s.Serves body) : s.Serving (.text body) := by
  obtain ⟨pid, c, hp⟩ := not_down.mp h.2
  obtain rfl : c = .text body := Option.some.inj ((h.1.1.conf pid c hp).symm.trans h.1.2)
  refine ⟨pid, fun q d => ⟨h.1.1.named.unique hp, ?_⟩⟩
  rintro ⟨rfl, rfl⟩
  exact hp

/-! ### What time changes -/

theorem Drift.conf (h : Drift s t) : t.conf = s.conf := by
  cases h <;> rfl

/-- Whatever of ours runs after it ran before. -/
theorem Drift.runs (h : Drift s t) (ht : t.Runs q c) : s.Runs q c := by
  cases h with
  | exit pid => exact (exit_runs.mp ht).2
  | leave hp => exact (exit_runs.mp ht).2
  | start pid P hfree hforeign =>
    rcases spawned_runs.mp ht with ⟨-, hc⟩ | ⟨-, hs⟩
    · rw [hforeign] at hc
      cases hc
    · exact hs

theorem Drift.named (h : Drift s t) (hs : s.Named) : t.Named := by
  intro q c ht
  have hq := hs q c (h.runs ht)
  cases h with
  | exit pid => exact hq
  | leave hp =>
    -- what has left was the one that was named
    exact absurd (hs.unique hp (exit_runs.mp ht).2).1 (exit_runs.mp ht).1
  | start pid P hfree hforeign => exact hq

theorem Drifts.conf (h : s.Drifts t) : t.conf = s.conf := by
  induction h with
  | refl => rfl
  | tail _ hstep ih => exact hstep.conf.trans ih

theorem Drifts.runs (h : s.Drifts t) (ht : t.Runs q c) : s.Runs q c := by
  induction h with
  | refl => exact ht
  | tail _ hstep ih => exact ih (hstep.runs ht)

theorem survives_named : Survives Named := by
  intro s t hs h
  induction h with
  | refl => exact hs
  | tail _ hstep ih => exact hstep.named ih

theorem survives_current : Survives Current := by
  intro s t hs h
  refine ⟨survives_named s t hs.named h, fun pid c hp => ?_⟩
  rw [h.conf]
  exact hs.conf pid c (h.runs hp)

theorem survives_conf {o : Option Contents} : Survives fun s => s.conf = o :=
  fun _ _ hs h => h.conf.trans hs

theorem survives_down : Survives Down := fun _ _ hs h pid c hp => hs pid c (h.runs hp)

theorem Survives.and {I J : DhcpHost → Prop} (hI : Survives I) (hJ : Survives J) :
    Survives fun s => I s ∧ J s :=
  fun s t hs h => ⟨hI s t hs.1 h, hJ s t hs.2 h⟩

theorem survives_holds : Survives (Holds body) := survives_current.and survives_conf

theorem survives_ready : Survives (Ready body) := survives_conf.and survives_down

end Known

/-! ## What each function does -/

section Functions
variable {α : Type} {s t : DhcpHost} {body : String} {o : Option Contents}

/-- The calls that change nothing. -/
def Looks : DhcpCall → Prop
  | .writeConf _ | .pid (.kill _ _) | .pid .removePidfile | .spawn => False
  | _ => True

theorem eq_of_table (htable : t.toPidTable = s.toPidTable) (hconf : t.conf = s.conf) : t = s := by
  cases s
  cases t
  subst htable hconf
  rfl

theorem eq_of_looks {c : DhcpCall} {r : c.Ret} (hc : Looks c) (h : Effect c s r t) : t = s := by
  cases c with
  | writeConf body => exact hc.elim
  | spawn => exact hc.elim
  | readConf => exact h.1
  | createDirAll => exact h
  | binIsFile => exact h
  | hangup pid => exact h
  | sleep d => exact h
  | pid c =>
    cases c with
    | readPidfile => exact eq_of_table h.1.1 h.2
    | readCmdline pid => exact eq_of_table h.1.1 h.2
    | kill pid sig => exact hc.elim
    | sleep d => exact eq_of_table h.1 h.2
    | removePidfile => exact hc.elim

/-- **The call rule**: what time keeps holds where the call acts. -/
theorem wp_call {C : DhcpCall → DhcpHost → Prop} {I : DhcpHost → Prop} (hI : Survives I)
    {c : DhcpCall} {k : c.Ret → Prog DhcpSig α} {Q : α → DhcpHost → Prop} (hs : I s)
    (h : ∀ u, I u → ∀ r t, Effect c u r t → wp (env C) (k r) Q t) :
    wp (env C) (.call c k) Q s := by
  rintro r t ⟨u, hu, -, hE⟩
  exact h u (hI s u hs hu) r t hE

/-- A call that only looks keeps what time keeps. -/
theorem wp_look {C : DhcpCall → DhcpHost → Prop} {I : DhcpHost → Prop} (hI : Survives I)
    {c : DhcpCall} {k : c.Ret → Prog DhcpSig α} {Q : α → DhcpHost → Prop} (hc : Looks c) (hs : I s)
    (h : ∀ r t, I t → Effect c t r t → wp (env C) (k r) Q t) : wp (env C) (.call c k) Q s := by
  refine wp_call hI hs fun u hu r t hE => ?_
  obtain rfl := eq_of_looks hc hE
  exact h r t hu hE

/-! ### The functions of `pidfile` -/

/-- The functions of `pidfile` on the host. -/
abbrev onPidfile : Env PidSig DhcpHost := (env Genuine).inlined Dhcp.ofPid

theorem onPidfile_iff {c : PidCall} {r : c.Ret} :
    onPidfile c s r t ↔ ∃ u, s.Drifts u ∧ Genuine (.pid c) u ∧ Effect (.pid c) u r t := exec_call

/-- They read what is there, and whose command line they read is dnsmasq or does not match. -/
theorem reads_onPidfile : PidTable.Reads DhcpProc.cmdline onPidfile DhcpHost.toPidTable Drifts Eq
    fun pid => Genuine (.pid (.readCmdline pid)) where
  before s := .refl
  after s := rfl
  pidfile s r t h := by
    obtain ⟨u, hsu, -, hE⟩ := onPidfile_iff.mp h
    obtain rfl := eq_of_looks (c := .pid .readPidfile) trivial hE
    exact ⟨t, hsu, rfl, hE.1.2⟩
  cmdline pid s r t h := by
    obtain ⟨u, hsu, hgenuine, hE⟩ := onPidfile_iff.mp h
    obtain rfl := eq_of_looks (c := .pid (.readCmdline pid)) trivial hE
    exact ⟨t, hsu, rfl, hgenuine, hE.1.2⟩

/-- **A check** tells whether one of ours runs. -/
theorem wp_isAliveIn {I : DhcpHost → Prop} (hI : Survives I) (hnamed : ∀ u, I u → u.Named)
    (hs : I s) :
    wp onPidfile (isAliveIn dnsmasqBin) (fun alive t => I t ∧ (alive = true ↔ ¬ t.Down)) s := by
  refine wp_mono reads_onPidfile.wp_isAliveIn ?_
  rintro alive _ ⟨u, _, t, hsu, rfl, hut, rfl, hgenuine, halive⟩
  have hu := hI s u hs hsu
  refine ⟨hI u t hu hut, halive.trans ?_⟩
  rw [not_down]
  constructor
  · rintro ⟨pid, P, hpid, hP, hm⟩
    obtain ⟨c, hc⟩ := Option.isSome_iff_exists.mp (hgenuine pid hpid P hP hm)
    exact ⟨pid, c, P, hP, hc⟩
  · rintro ⟨pid, c, hruns⟩
    -- it ran when the pidfile was read, and was named
    have hpid := hnamed u hu pid c (hut.runs hruns)
    obtain ⟨P, hP, hm⟩ := hruns.matches
    exact ⟨pid, P, hpid, hP, hm⟩

theorem wp_isRunning {I : DhcpHost → Prop} (hI : Survives I) (hnamed : ∀ u, I u → u.Named)
    (hs : I s) :
    wp (env Genuine) Dhcp.isRunning (fun alive t => I t ∧ (alive = true ↔ ¬ t.Down)) s :=
  wp_inline.mpr (wp_isAliveIn hI hnamed hs)

/-- What is known during a stop: none of ours has a pid but the one it has read. -/
structure Stopping (o : Option Contents) (pid : Int) (s : DhcpHost) : Prop where
  /-- The conf is not touched. -/
  conf : s.conf = o
  /-- The pidfile names every dnsmasq of ours. -/
  named : s.Named
  /-- Each of them has this pid. -/
  only : ∀ q c, s.Runs q c → q = pid

theorem survives_stopping {pid : Int} : Survives (Stopping o pid) := fun s t hs h =>
  ⟨h.conf.trans hs.conf, survives_named s t hs.named h, fun q c hq => hs.only q c (h.runs hq)⟩

/-- A signal ends what has the pid, or leaves all as it is; SIGKILL ends it. -/
theorem Stopping.kill {pid : Int} {sig : PidSignal} {r : Except Error Unit}
    (hs : s.Stopping o pid) (h : onPidfile (.kill pid sig) s r t) :
    t.Stopping o pid ∧ (sig = .kill → t.Down) := by
  obtain ⟨u, hsu, -, htable, hconf⟩ := onPidfile_iff.mp h
  have hu := survives_stopping s u hs hsu
  rcases htable with htable | ⟨rfl, htable⟩
  · obtain rfl : t = u.exit pid := eq_of_table htable hconf
    refine ⟨⟨hu.conf, fun q c hq => hu.named q c (exit_runs.mp hq).2, fun q c hq =>
      hu.only q c (exit_runs.mp hq).2⟩, fun _ q c hq => ?_⟩
    exact (exit_runs.mp hq).1 (hu.only q c (exit_runs.mp hq).2)
  · obtain rfl := eq_of_table htable hconf
    exact ⟨hu, fun hsig => nomatch hsig⟩

theorem stops_onPidfile : PidTable.Stops onPidfile dnsmasqBin (Stopping o) (Stopping o)
    (fun s => s.conf = o ∧ s.Down) fun s => s.conf = o ∧ s.Down where
  check pid s hs := by
    refine wp_mono (wp_isAliveIn survives_stopping (fun _ hu => hu.named) hs) ?_
    rintro alive t ⟨ht, halive⟩
    cases alive with
    | true => exact ht
    | false => exact ⟨ht.conf, not_not.mp fun hn => Bool.false_ne_true (halive.mpr hn)⟩
  kill pid sig s r t hs h :=
    have ht := hs.kill h
    ⟨ht.1, fun hsig => ⟨ht.1.conf, ht.2 hsig⟩⟩
  sleep pid d s r t hs h := by
    obtain ⟨u, hsu, -, hE⟩ := onPidfile_iff.mp h
    obtain rfl := eq_of_looks (c := .pid (.sleep d)) trivial hE
    exact survives_stopping s t hs hsu
  remove s r t hs h := by
    obtain ⟨u, hsu, -, htable, hconf⟩ := onPidfile_iff.mp h
    obtain ⟨hu, hdown⟩ := (survives_conf.and survives_down) s u hs hsu
    exact ⟨hconf.trans hu, fun pid c hruns => hdown pid c (hruns.of_remove htable)⟩

/-- **A stop** leaves none of ours. -/
theorem wp_stopIn {wait : Duration} (hs : s.Named) (hconf : s.conf = o) :
    wp onPidfile (stopIn dnsmasqBin wait) (fun r t => r = .ok () ∧ t.conf = o ∧ t.Down) s := by
  refine stops_onPidfile.wp_stopIn (wp_mono reads_onPidfile.wp_readPid ?_)
  rintro _ _ ⟨t, hst, rfl, rfl⟩
  have ht := survives_named s t hs hst
  have htconf := hst.conf.trans hconf
  refine ⟨fun hnone => ⟨htconf, fun pid c hruns => ?_⟩, fun pid hpid =>
    ⟨htconf, ht, fun q c hq => Option.some.inj ((ht q c hq).symm.trans hpid)⟩⟩
  rw [ht pid c hruns] at hnone
  cases hnone

theorem wpE_stop {R : Error → DhcpHost → Prop} (hs : s.Named) (hconf : s.conf = o) :
    wpE (env Genuine) Dhcp.stop (fun _ t => t.conf = o ∧ t.Down) R s := by
  unfold Dhcp.stop
  rw [wpE_mk, wp_inline]
  refine wp_mono (wp_stopIn hs hconf) ?_
  rintro _ t ⟨rfl, ht⟩
  exact ht

/-! ### Starting and reloading -/

/-- The process, started on the file. -/
theorem wp_spawn {C : DhcpCall → DhcpHost → Prop} (hs : s.Ready body) :
    wp (env C) DhcpCall.spawn.make (fun r t => (r = .ok (some 0) → t.Serves body) ∧
      (r ≠ .ok (some 0) → t.Ready body)) s := by
  refine wp_call survives_ready hs fun u hu r t hE => ?_
  rcases hE with ⟨pid, P, text, rfl, -, hloaded, -, hpid, rfl⟩ | ⟨hr, ht⟩
  · refine ⟨fun _ => ?_, fun h => absurd rfl h⟩
    have honly : ∀ q c, (u.spawned pid P).Runs q c ↔ q = pid ∧ P.loaded = some c := by
      intro q c
      rw [spawned_runs]
      exact or_iff_left fun h => hu.2 q c h.2
    refine ⟨⟨⟨?_, ?_⟩, hu.1⟩, not_down.mpr ⟨pid, .text body, (honly _ _).mpr ⟨rfl, ?_⟩⟩⟩
    · intro q c hq
      rw [((honly q c).mp hq).1]
      exact hpid
    · intro q c hq
      exact hloaded.symm.trans ((honly q c).mp hq).2
    · exact hloaded.trans hu.1
  · refine ⟨fun h => absurd h hr, fun _ => ?_⟩
    rw [ht]
    exact hu

/-- **A start**, where none of ours runs: dnsmasq has read the file, or still none runs. -/
theorem wpE_start (hs : s.Ready body) :
    wpE (env Genuine) Dhcp.start (fun _ t => t.Serves body) (fun _ t => t.Ready body) s := by
  have hnamed : ∀ u : DhcpHost, u.Ready body → u.Named := fun u hu => hu.2.named
  unfold Dhcp.start
  simp only [wpE_bind, wpE_lift, wpE_ite, wpE_pure, wpE_throw, wpE_mk]
  refine wp_look survives_ready trivial hs fun isFile t ht _ => ?_
  refine ⟨fun _ => wp_mono (wp_isRunning survives_ready hnamed ht) ?_, fun _ => ht⟩
  rintro running u ⟨hu, hrunning⟩
  refine ⟨fun h => absurd hu.2 (hrunning.mp h), fun _ => ?_⟩
  refine wp_look survives_ready trivial hu fun made v hv _ => ?_
  cases made with
  | error e => exact hv
  | ok _ =>
    have hspawn : ∀ w : DhcpHost, w.Ready body → wp (env Genuine) DhcpCall.spawn.make
        (post (fun status t => (status = some 0 → t.Serves body) ∧
          (¬ status = some 0 → t.Ready body)) (fun _ t => t.Ready body)) w := by
      refine fun w hw => wp_mono (wp_spawn hw) fun r t h => ?_
      cases r with
      | error e => exact h.2 (by simp)
      | ok status =>
        refine ⟨fun hok => h.1 (congrArg _ hok), fun hne => h.2 fun hok => hne ?_⟩
        exact Except.ok.inj hok
    rw [wp_ret, post_ok]
    refine wp_mono (wp_isRunning survives_ready hnamed hv) ?_
    rintro alive w ⟨hw, -⟩
    refine ⟨fun _ => hspawn w hw, fun _ => ?_⟩
    refine wp_call survives_ready hw fun x hx r y hE => hspawn y ?_
    exact ⟨hE.2.trans hx.1, fun pid c hruns => hx.2 pid c (hruns.of_remove hE.1)⟩

/-- A signal changes nothing that time would not. -/
theorem wp_sighup {I : DhcpHost → Prop} (hI : Survives I) (hs : I s) :
    wp (env Genuine) Dhcp.sighup.run (fun _ t => I t) s := by
  have hpid : ∀ c : PidCall, Looks (.pid c) →
      (Dhcp.ofPid c).Within Looks fun _ => True := fun c hc => ⟨hc, fun _ => trivial⟩
  have hread : readPid.Within (fun c => Looks (.pid c)) fun _ => True := by
    refine ⟨trivial, fun r => ?_⟩
    cases r <;> exact trivial
  have halive : (isAliveIn dnsmasqBin).Within (fun c => Looks (.pid c)) fun _ => True := by
    refine within_bind.mpr (within_mono (fun _ h => h) (fun pid _ => ?_) hread)
    cases pid with
    | none => exact trivial
    | some pid =>
      refine ⟨trivial, fun r => ?_⟩
      cases r <;> exact trivial
  have hlooks : WithinE Looks (fun _ => True) Dhcp.sighup := by
    unfold Dhcp.sighup
    rw [withinE_bind, withinE_lift]
    refine within_mono (fun _ h => h) (fun pid _ => ?_) (within_inline hpid hread)
    cases pid with
    | none => exact withinE_throw
    | some pid =>
      rw [withinE_bind, withinE_lift]
      refine within_mono (fun _ h => h) (fun alive _ => ?_) (within_inline hpid halive)
      rw [withinE_ite]
      exact ⟨fun _ => ⟨trivial, fun _ _ _ => trivial⟩, fun _ => withinE_throw⟩
  refine wp_mono (wp_within ?_ hlooks hs) fun _ _ h => h.2
  rintro c u r v hc hu ⟨w, hw, -, hE⟩
  obtain rfl := eq_of_looks hc hE
  exact hI u v hu hw

/-- A restart. -/
theorem wpE_stop_start (hs : s.Named) (hconf : s.conf = some (.text body)) :
    wpE (env Genuine) (do Dhcp.stop; Dhcp.start) (fun _ t => t.Serves body)
      (fun _ t => t.Ready body) s := by
  rw [wpE_bind]
  exact wpE_mono (wpE_stop hs hconf) (fun _ _ h => wpE_start h) fun _ _ h => h

/-- **Reload or restart**, where the file holds `body`, and so has what runs unless the file
has just changed. -/
theorem wpE_reloadOrRestart {changed : Bool} (hs : s.Named) (hconf : s.conf = some (.text body))
    (hsame : changed = false → s.Holds body) :
    wpE (env Genuine) (Dhcp.reloadOrRestart changed) (fun _ t => t.Serves body)
      (fun _ t => t.Ready body) s := by
  unfold Dhcp.reloadOrRestart
  simp only [wpE_bind, wpE_lift, wpE_ite]
  have hkept : Survives fun u =>
      (u.Named ∧ u.conf = some (.text body)) ∧ (changed = false → u.Holds body) :=
    (survives_named.and survives_conf).and fun u v hu h hc => survives_holds u v (hu hc) h
  refine wp_mono (wp_isRunning hkept (fun _ hu => hu.1.1) ⟨⟨hs, hconf⟩, hsame⟩) ?_
  rintro running t ⟨⟨⟨hnamed, hconf⟩, hsame⟩, hrunning⟩
  refine ⟨fun _ => ⟨fun _ => ?_, fun hc => ?_⟩, fun hdown => ?_⟩
  · rw [← wpE_bind]
    exact wpE_stop_start hnamed hconf
  · -- an unchanged file: the signal and the sleep leave what it has read
    have hholds := hsame (Bool.eq_false_iff.mpr hc)
    refine wp_mono (wp_sighup survives_holds hholds) fun sent u hu => ?_
    cases sent with
    | error e => exact wpE_stop_start hu.1.named hu.2
    | ok _ =>
      show wpE (env Genuine) (do
        let _ ← (DhcpCall.sleep Dhcp.sighupWait).make
        if ← Dhcp.isRunning then return () else Dhcp.start) _ _ u
      simp only [wpE_bind, wpE_lift, wpE_ite, wpE_pure]
      refine wp_look survives_holds trivial hu fun _ v hv _ => ?_
      rw [wp_ret]
      refine wp_mono (wp_isRunning survives_holds (fun _ hu => hu.1.named) hv) ?_
      rintro alive w ⟨hw, halive⟩
      exact ⟨fun hup => ⟨hw, halive.mp hup⟩, fun hdead =>
        wpE_start ⟨hw.2, not_not.mp fun hn => hdead (halive.mpr hn)⟩⟩
  · exact wpE_start ⟨hconf, not_not.mp fun hn => hdown (hrunning.mpr hn)⟩

/-- **The conf file**, written if it differs: what runs has read it unless it was written. -/
theorem wpE_ensureConf {C : DhcpCall → DhcpHost → Prop} (hbody : body ≠ "") (hs : s.Current) :
    wpE (env C) (Dhcp.ensureConf body)
      (fun changed t => t.Named ∧ t.conf = some (.text body) ∧ (changed = false → t.Holds body))
      (fun _ t => t.Current) s := by
  unfold Dhcp.ensureConf
  simp only [wpE_bind, wpE_lift, wpE_ite, wpE_pure, wpE_mk]
  refine wp_look survives_current trivial hs fun made t ht _ => ?_
  cases made with
  | error e => exact ht
  | ok _ =>
    refine wp_look survives_current trivial ht fun read u hu hread => ?_
    refine ⟨fun hprev => ?_, fun _ => ?_⟩
    · cases read with
      | error e => exact absurd hprev.symm hbody
      | ok text =>
        have hconf : u.conf = some (.text body) := hprev ▸ hread.2 text rfl
        exact ⟨hu.named, hconf, fun _ => ⟨hu, hconf⟩⟩
    · refine wp_call survives_current hu fun v hv wrote w hE => ?_
      rcases hE with ⟨rfl, rfl⟩ | ⟨herr, rfl⟩
      · exact ⟨hv.named, rfl, by simp⟩
      · cases wrote with
        | ok _ => cases herr
        | error e => exact hv

/-- Nothing but a spawn starts one of ours. -/
theorem Down.step {C : DhcpCall → DhcpHost → Prop} {s t : DhcpHost} {c : DhcpCall}
    {r : c.Ret} (hc : c ≠ .spawn) (hs : s.Down) (h : env C c s r t) : t.Down := by
  obtain ⟨u, hsu, -, hE⟩ := h
  have hu := survives_down s u hs hsu
  have hprocs : (∀ pid P, t.procs pid = some P → u.procs pid = some P) → t.Down :=
    fun h pid c ⟨P, hP, hc⟩ => hu pid c ⟨P, h pid P hP, hc⟩
  by_cases hlooks : Looks c
  · rw [eq_of_looks hlooks hE]
    exact hu
  cases c with
  | spawn => exact absurd rfl hc
  | writeConf body =>
    rcases hE with ⟨-, rfl⟩ | ⟨-, rfl⟩
    · exact hu
    · exact hu
  | pid c =>
    refine hprocs fun pid P hP => ?_
    obtain ⟨htable, -⟩ := hE
    cases c with
    | kill q sig =>
      rcases htable with htable | ⟨-, htable⟩
      · rw [htable] at hP
        by_cases hq : pid = q
        · subst hq
          rw [PidTable.exit_procs] at hP
          cases hP
        · rwa [PidTable.exit_procs_of_ne hq] at hP
      · rwa [htable] at hP
    | removePidfile =>
      rcases htable with ⟨-, htable⟩ | ⟨-, htable⟩
      · rwa [htable] at hP
      · rwa [htable] at hP
    | _ => exact absurd trivial hlooks
  | _ => exact absurd trivial hlooks

/-- So none runs after calls none of which is a spawn. -/
theorem Down.of_log {C : DhcpCall → DhcpHost → Prop} {p : Prog DhcpSig α} {a : α}
    {l : Log DhcpSig DhcpHost} (hs : s.Down) (h : p.Exec (env C).logged (s, []) a (t, l))
    (hl : ∀ e ∈ l, e.op ≠ .spawn) : t.Down := by
  refine h.keeps (I := fun u => (∀ e ∈ u.2, e.op ≠ .spawn) → u.1.Down) ?_ (fun _ => hs) hl
  intro c u r v hu hE hv
  rw [hE.2] at hv
  refine (hu fun e he => hv e (List.mem_append_left _ he)).step ?_ hE.1
  exact hv ⟨c, u.1, r⟩ (by simp)

end Functions

/-! ## A reload -/

/-- A start was tried: nothing else looks for the binary. -/
def Started (l : Log DhcpSig DhcpHost) : Prop := ∃ e ∈ l, e.op = .binIsFile

theorem withinE_ensureConf (body : String) :
    WithinE (fun c : DhcpCall => c ≠ .binIsFile) (fun _ => True) (Dhcp.ensureConf body) := by
  simp [Dhcp.ensureConf]

/-- **A reload**: on success dnsmasq runs on the text that belongs to the call, and after a
failed start none of ours runs. -/
theorem wpE_dhcpReloadOrRestart {s : DhcpHost} {paths : DhcpPaths} {cfg : Config} {iface : String}
    (hs : s.Current) :
    wpE (env Genuine).logged (dhcpReloadOrRestart paths cfg iface)
      (fun _ t => t.1.Serves (renderConf cfg iface paths.leasefile paths.pidfile))
      (fun _ t => t.1.Current ∧ (Started t.2 → t.1.Down)) (s, []) := by
  unfold dhcpReloadOrRestart
  rw [wpE_bind, wpE_lift]
  rintro made ⟨t, l⟩ ⟨⟨u, hu, -, hE⟩, rfl⟩
  obtain rfl : t = u := hE
  rw [wp_ret, wpE_bind]
  have hbody := renderConf_ne_empty cfg iface paths.leasefile paths.pidfile
  refine wpE_mono (wpE_and (wpE_logged (wpE_ensureConf hbody (survives_current s t hs hu)))
    (wpE_within_logged (I := fun _ => True) (fun _ _ _ _ _ _ _ => trivial)
      (withinE_ensureConf _) trivial)) ?_ ?_
  · rintro changed ⟨v, m⟩ ⟨⟨hnamed, hconf, hsame⟩, -⟩
    refine wpE_mono (wpE_logged (wpE_reloadOrRestart hnamed hconf hsame)) (fun _ _ h => h) ?_
    exact fun _ _ h => ⟨h.current, fun _ => h.2⟩
  · rintro e ⟨v, m⟩ ⟨hv, -, seg, rfl, hseg⟩
    refine ⟨hv, fun ⟨e, he, hop⟩ => ?_⟩
    rcases List.mem_cons.mp he with rfl | he
    · cases hop
    · exact absurd hop (hseg e he)

end DhcpHost

/-! ## Runs -/

/-- What is told of a reload in a run. -/
structure Reloaded where
  /-- Its arguments. -/
  cfg : Config
  iface : String
  /-- What it returned. -/
  result : Except Error Unit
  /-- Its calls. -/
  log : Log DhcpSig DhcpHost
  /-- The host it leaves. -/
  after : DhcpHost

/-- **A run**: reloads and stops one after another, whose calls are made when `C` holds.  It
starts where no dnsmasq of ours runs, on any conf file, any pidfile and any other processes; and
processes end and start at any time, also between the calls of one reload. -/
inductive DhcpHost.Run (C : DhcpCall → DhcpHost → Prop) (paths : DhcpPaths) :
    List Reloaded → DhcpHost → Prop
  | start (s : DhcpHost) (h : s.Down) : Run C paths [] s
  | reload {rs : List Reloaded} {s t : DhcpHost} {cfg : Config} {iface : String}
      {r : Except Error Unit} {l : Log DhcpSig DhcpHost} :
      Run C paths rs s → cfg.Valid →
      (dhcpReloadOrRestart paths cfg iface).run.Exec (DhcpHost.env C).logged (s, []) r (t, l) →
      Run C paths (rs ++ [⟨cfg, iface, r, l, t⟩]) t
  | stop {rs : List Reloaded} {s t : DhcpHost} {r : Except Error Unit} :
      Run C paths rs s → Dhcp.stop.run.Exec (DhcpHost.env C) s r t → Run C paths rs t
  | drift {rs : List Reloaded} {s t : DhcpHost} :
      Run C paths rs s → s.Drifts t → Run C paths rs t

namespace DhcpHost
variable {paths : DhcpPaths} {rs : List Reloaded} {s : DhcpHost}

/-- **What runs has read the file**, in every state between two steps. -/
theorem Run.current (h : Run Genuine paths rs s) : s.Current := by
  induction h with
  | start s h => exact h.current
  | @reload rs s t cfg iface r l _ _ hreload ih =>
    have hr := wpE_iff.mp (wpE_dhcpReloadOrRestart ih) r (t, l) hreload
    cases r with
    | ok _ => exact hr.1.1
    | error e => exact hr.1
  | @stop rs s t r _ hstop ih =>
    have hr := wpE_iff.mp (wpE_stop (R := fun _ u => u.Down) ih.named rfl) r t hstop
    cases r with
    | ok _ => exact hr.2.current
    | error e => exact Down.current hr
  | drift _ hdrift ih => exact survives_current _ _ ih hdrift

/-- **A running dnsmasq has loaded the current configuration**, in every run in which each process
that is looked at and matches is a dnsmasq of ours (`Genuine`): after a reload that succeeds one
dnsmasq of ours runs, and it has read the text of that reload; after one that fails in a start
none runs.  A run starts with none of ours and with anything in the files; any call may fail but
the reads of the pidfile and of `/proc`, and at any time processes end and others start. -/
theorem reload_is_loaded (h : Run Genuine paths rs s) :
    ∀ a ∈ rs,
      (a.result = .ok () →
        a.after.Serving (.text (renderConf a.cfg a.iface paths.leasefile paths.pidfile))) ∧
      (isErr a.result → Started a.log → a.after.Down) := by
  induction h with
  | start s h =>
    intro a ha
    cases ha
  | @reload rs s t cfg iface r l hrun _ hreload ih =>
    intro a ha
    rcases List.mem_append.mp ha with ha | ha
    · exact ih a ha
    obtain rfl := List.mem_singleton.mp ha
    have hr := wpE_iff.mp (wpE_dhcpReloadOrRestart hrun.current) r (t, l) hreload
    constructor
    · rintro rfl
      have hserves : t.Serves (renderConf cfg iface paths.leasefile paths.pidfile) := hr
      exact hserves.serving
    · intro herr hstarted
      cases r with
      | ok _ => cases herr
      | error e => exact hr.2 hstarted
  | stop _ _ ih => exact ih
  | drift _ _ ih => exact ih

/-! ### Runs that are computed -/

/-- A dnsmasq of ours that has read `o`. -/
def dnsmasqOn (o : Option Contents) : DhcpProc where
  cmdline := PidHost.cmdlineOf [dnsmasqBin, "-C", "/data/etc/dnsmasq.conf"]
  loaded := o
  runs _ := by decide

/-- A process of another program. -/
def foreign (args : List String) : DhcpProc where
  cmdline := PidHost.cmdlineOf args
  loaded := none
  runs h := nomatch h

/-- A host on which calls succeed, and a start when `starts`. -/
def respond (starts : Bool) : Handler DhcpSig DhcpHost
  | .createDirAll, s | .hangup _, s => (.ok (), s)
  | .readConf, s =>
    match s.conf with
    | some (.text body) => (.ok body, s)
    | _ => (.error (.other "No such file or directory (os error 2)"), s)
  | .writeConf body, s => (.ok (), { s with conf := some (.text body) })
  | .binIsFile, s => (true, s)
  | .pid c, s =>
    let x := PidTable.respond DhcpProc.cmdline c s.toPidTable
    (x.1, { s with toPidTable := x.2 })
  | .sleep _, s => ((), s)
  | .spawn, s =>
    if starts && s.conf.isSome && (s.procs 4242).isNone then
      (.ok (some 0), { s.spawned 4242 (dnsmasqOn s.conf) with pidfile := some (.text "4242\n") })
    else (.ok (some 2), s)

theorem effect_respond (starts : Bool) (c : DhcpCall) (s : DhcpHost) :
    Effect c s (respond starts c s).1 (respond starts c s).2 := by
  cases c with
  | readConf => rcases hconf : s.conf with _ | _ | _ <;> simp [respond, Effect, hconf]
  | spawn =>
    by_cases hstarts : (starts && s.conf.isSome && (s.procs 4242).isNone) = true
    · have hpid : pidOf "4242\n" = some 4242 := by decide
      simp only [Bool.and_eq_true, Option.isNone_iff_eq_none] at hstarts
      obtain ⟨⟨rfl, hconf⟩, hfree⟩ := hstarts
      refine Or.inl ⟨4242, dnsmasqOn s.conf, "4242\n", ?_, hconf, rfl, hfree, hpid, ?_⟩ <;>
        simp [respond, hconf, hfree]
    · have hfails : respond starts .spawn s = (.ok (some 2), s) := if_neg hstarts
      rw [hfails]
      exact Or.inr ⟨by simp, rfl⟩
  | pid c => exact ⟨PidTable.effect_respond DhcpProc.cmdline c s.toPidTable, rfl⟩
  | _ => simp [respond, Effect]

theorem respond_implements (starts : Bool) : (respond starts).Implements (env fun _ _ => True) :=
  fun c s => ⟨s, .refl, trivial, effect_respond starts c s⟩

/-- A process of another program that would be taken for dnsmasq has ended before it is looked
at. -/
def cleared : DhcpCall → DhcpHost → DhcpHost
  | .pid (.readCmdline pid), s =>
    if (s.procs pid).any fun P => cmdlineMatches P.cmdline dnsmasqBin && P.loaded.isNone then
      s.exit pid
    else s
  | _, s => s

/-- The same host, where nothing is taken for dnsmasq. -/
def handler (starts : Bool) : Handler DhcpSig DhcpHost := fun c s => respond starts c (cleared c s)

theorem cleared_genuine (c : DhcpCall) (s : DhcpHost) :
    s.Drifts (cleared c s) ∧ Genuine c (cleared c s) := by
  rcases c with _ | _ | _ | _ | c | _ | _ | _
  case pid =>
    cases c with
    | readCmdline pid =>
      by_cases hforeign : ((s.procs pid).any fun P =>
          cmdlineMatches P.cmdline dnsmasqBin && P.loaded.isNone) = true
      · rw [cleared, if_pos hforeign]
        exact ⟨.single (.exit s pid), by simp [Genuine, DhcpHost.exit]⟩
      · rw [cleared, if_neg hforeign]
        refine ⟨.refl, fun P hP hm => ?_⟩
        by_contra hloaded
        refine hforeign ((Option.any_eq_true _ _).mpr ⟨P, hP, ?_⟩)
        simpa [hm] using hloaded
    | _ => exact ⟨.refl, trivial⟩
  all_goals exact ⟨.refl, trivial⟩

theorem handler_implements (starts : Bool) : (handler starts).Implements (env Genuine) :=
  fun c s => ⟨cleared c s, (cleared_genuine c s).1, (cleared_genuine c s).2,
    effect_respond starts c (cleared c s)⟩

/-- The paths under `/data`. -/
def dataPaths : DhcpPaths where
  leasefile := "/data/etc/dnsmasq.leases"
  pidfile := "/data/run/dnsmasq.pid"

/-- The defaults on `eth0`, reloaded. -/
def reloaded (H : Handler DhcpSig DhcpHost) (s : DhcpHost) : Reloaded :=
  let out := (dhcpReloadOrRestart dataPaths {} "eth0").run.run H.logged (s, [])
  ⟨{}, "eth0", out.1, out.2.2, out.2.1⟩

theorem Run.reloaded {C : DhcpCall → DhcpHost → Prop} {H : Handler DhcpSig DhcpHost}
    (hH : H.Implements (env C)) (h : Run C dataPaths rs s) :
    Run C dataPaths (rs ++ [DhcpHost.reloaded H s]) (DhcpHost.reloaded H s).after :=
  .reload h (by decide) (hH.logged.exec _ _)

theorem Down.reloaded {C : DhcpCall → DhcpHost → Prop} {H : Handler DhcpSig DhcpHost}
    (hH : H.Implements (env C)) (hs : s.Down)
    (hl : ∀ e ∈ (DhcpHost.reloaded H s).log, e.op ≠ .spawn) :
    (DhcpHost.reloaded H s).after.Down :=
  hs.of_log (hH.logged.exec (dhcpReloadOrRestart dataPaths {} "eth0").run (s, [])) hl

/-! ### A start that fails -/

/-- An old conf is there, and an old pidfile whose pid a shell has now. -/
def leftovers : DhcpHost where
  conf := some (.text "interface=eth1\n")
  pidfile := some (.text "311\n")
  procs pid := if pid = 311 then some (foreign ["/bin/sh"]) else none

theorem leftovers_down : leftovers.Down := by
  rintro pid c ⟨P, hP, hc⟩
  obtain ⟨-, hP⟩ := Option.ite_none_right_eq_some.mp hP
  obtain rfl := Option.some.inj hP
  cases hc

/-- Its start fails, so the new conf is there and no dnsmasq runs. -/
def failedStart : Reloaded := reloaded (handler false) leftovers

/-- The same again: the conf is not new, and it starts all the same. -/
def retried : Reloaded := reloaded (handler true) failedStart.after

/-- **Tried again, it loads the conf** that the failed start has written. -/
theorem retried_is_loaded :
    failedStart.after.Down ∧ retried.after.Serving
      (.text (renderConf {} "eth0" dataPaths.leasefile dataPaths.pidfile)) := by
  have hrun := ((Run.start leftovers leftovers_down).reloaded (handler_implements false)).reloaded
    (handler_implements true)
  constructor
  · refine (reload_is_loaded hrun failedStart (by simp [failedStart])).2 (by decide +kernel) ?_
    exact ⟨_, .tail _ (.tail _ (.tail _ (.tail _ (.tail _ (.tail _ (.head _)))))), rfl⟩
  · exact (reload_is_loaded hrun retried (by simp [retried, failedStart])).1 (by decide +kernel)

/-! ### A process that is taken for dnsmasq -/

/-- dnsmasq has died, and `tail` on its log file has its pid; the conf is the one that will be
asked for. -/
def mistaken : DhcpHost where
  conf := some (.text (renderConf {} "eth0" dataPaths.leasefile dataPaths.pidfile))
  pidfile := some (.text "311\n")
  procs pid := if pid = 311 then some (foreign ["tail", "-f", "/var/log/dnsmasq"]) else none

/-- **The reload succeeds, and no dnsmasq runs**: `tail`, which outlives the SIGHUP, is taken
for it. -/
theorem mistaken_not_loaded :
    Run (fun _ _ => True) dataPaths [reloaded (respond true) mistaken]
        (reloaded (respond true) mistaken).after ∧
      (reloaded (respond true) mistaken).result = .ok () ∧
      (reloaded (respond true) mistaken).after.Down := by
  have hdown : mistaken.Down := by
    rintro pid c ⟨P, hP, hc⟩
    obtain ⟨-, hP⟩ := Option.ite_none_right_eq_some.mp hP
    obtain rfl := Option.some.inj hP
    cases hc
  refine ⟨(Run.start mistaken hdown).reloaded (respond_implements true), by decide +kernel, ?_⟩
  exact hdown.reloaded (respond_implements true) (by decide +kernel)

end DhcpHost
end Micronet
