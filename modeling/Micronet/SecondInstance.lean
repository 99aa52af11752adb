import Micronet.LiveDaemon

/-!
# A second instance of the daemon

`run` applies the configuration before it binds the control socket, and the bind is
where it learns that another live instance owns it.  A second instance therefore fails,
but only after one apply of its own: it leaves the network exactly as that apply does
(`run_occupied`), and untouched only when no configuration could be loaded.
-/
namespace Micronet
open Interaction Prog

/-- Why `serve_background` could not bind. -/
inductive BindError
  | alreadyRunning (processName location : String)
  | io (path source : String)
deriving DecidableEq, Repr

/-- `map_bind`. -/
def mapBind : BindError → Error
  | .alreadyRunning processName location => .ipc s!"{processName} already running at {location}"
  | .io path source => .ioPath path source

/-- The process name that the daemon binds the control socket under. -/
def processName : String := "micronet"

variable {σ : Type}

/-- The outside of a daemon whose control socket, at `location`, another live instance
owns: the bind fails, and only an apply or a call of the two traits acts on the network. -/
def occupied (W : Env CtlSig σ) (json : Except Error Config) (location : String) :
    Env ExtSig σ
  | .serve, s, r, t => r = .error (mapBind (.alreadyRunning processName location)) ∧ t = s
  | .loadOrCreateJson, s, r, t => r = json ∧ t = s
  | c, s, r, t => liveExt W Eq c s r t

section Run
variable {W : Env CtlSig σ} {json : Except Error Config} {location : String} {m : Mem} {s : σ}

/-- All that a second instance does. -/
theorem wpE_run_occupied {n : Nat} {Q : Unit → Mem × σ → Prop} {R : Error → Mem × σ → Prop} :
    wpE (daemonEnv (occupied W json location)) (run n) Q R (m, s) ↔
      match checked json with
      | .error e => R e (m, s)
      | .ok cfg => ∀ out t, (applyWith cfg).run.Exec W s out t →
        R (mapBind (.alreadyRunning processName location)) (.new cfg (boot out), t) := by
  have hload : ∀ P : Except Error Config → σ → Prop,
      (∀ j w, occupied W json location .loadOrCreateJson s j w → P j w) ↔ P json s := by
    intro P
    constructor
    · exact fun h => h json s ⟨rfl, rfl⟩
    · rintro h j w ⟨rfl, rfl⟩
      exact h
  have hserve : ∀ (P : Except Error Unit → σ → Prop) (t : σ),
      (∀ r w, occupied W json location .serve t r w → P r w) ↔
        P (.error (mapBind (.alreadyRunning processName location))) t := by
    intro P t
    constructor
    · exact fun h => h _ t ⟨rfl, rfl⟩
    · rintro h r w ⟨rfl, rfl⟩
      exact h
  simp only [run, start, wpE_bind, wpE_loadOrCreate]
  refine (hload _).trans ?_
  cases checked json with
  | error e => exact Iff.rfl
  | ok cfg =>
    simp only [post_ok, wpE_lift, wp_initialStatus, modifyMem, wpE_mk, wp_bind, wp_mem, wp_ext,
      wp_ret, wp_pure]
    exact forall_congr' fun out => forall_congr' fun t => imp_congr_right fun _ => hserve _ t

/-- **A second instance applies once and then fails.**  It fails with the error of its
configuration and leaves everything as it was, or it leaves what one apply of the
configuration leaves and fails at the control socket. -/
theorem run_occupied {n : Nat} {r : Except Error Unit} {t : σ} :
    (∃ m', (run n).run.Exec (daemonEnv (occupied W json location)) (m, s) r (m', t)) ↔
      match checked json with
      | .error e => r = .error e ∧ t = s
      | .ok cfg => r = .error (.ipc s!"micronet already running at {location}") ∧
        ∃ out, (applyWith cfg).run.Exec W s out t := by
  simp only [execE_iff_wpE (x := run n), wpE_run_occupied]
  cases checked json with
  | error e =>
    constructor
    · rintro ⟨m', h⟩
      have hpost := h (fun _ _ => False) (fun e' u => e' = e ∧ u.2 = s) ⟨rfl, rfl⟩
      cases r with
      | ok u => exact hpost.elim
      | error e' => exact ⟨congrArg _ hpost.1, hpost.2⟩
    · rintro ⟨rfl, rfl⟩
      exact ⟨m, fun Q R h => h⟩
  | ok cfg =>
    constructor
    · rintro ⟨m', h⟩
      have hpost := h (fun _ _ => False)
        (fun e' u => e' = .ipc s!"micronet already running at {location}" ∧
          ∃ out, (applyWith cfg).run.Exec W s out u.2)
        fun out t happly => ⟨rfl, out, happly⟩
      cases r with
      | ok u => exact hpost.elim
      | error e' => exact ⟨congrArg _ hpost.1, hpost.2⟩
    · rintro ⟨rfl, out, happly⟩
      exact ⟨.new cfg (boot out), fun Q R h => h out t happly⟩

/-! ### A second instance on the machine of the first -/

/-- The outside of a second instance, computed. -/
def occupiedHandler (H : Handler CtlSig σ) (json : Except Error Config) (location : String) :
    Handler ExtSig σ
  | .serve, s => (.error (mapBind (.alreadyRunning processName location)), s)
  | c, s => liveHandler H json c s

theorem occupiedHandler_implements {H : Handler CtlSig σ} {W : Env CtlSig σ}
    (hH : H.Implements W) (json : Except Error Config) (location : String) :
    (occupiedHandler H json location).Implements (occupied W json location) := by
  intro c s
  cases c with
  | serve => exact ⟨rfl, rfl⟩
  | loadOrCreateJson => exact ⟨rfl, rfl⟩
  | apply cfg => exact hH.exec _ _
  | ctl c => exact hH c s
  | _ => exact rfl

end Run

/-- The machine of a settled first instance: `eth0` is up with the address of its lease,
and its dhclient runs. -/
def firstInstance : Net × Bool :=
  ({ oneEthernet [.slash24 ⟨10, 0, 0, 5⟩] with dhclient := fun i => i = "eth0" }, false)

/-- A second instance, started on it. -/
def secondInstance : Handler ExtSig (Net × Bool) :=
  occupiedHandler (ctlHandler Lan.linked.net (Dnsmasq.handler (.ok false))) (.ok {})
    "/run/micronet.sock"

/-- The lease of the first instance is gone after it. -/
theorem second_instance_flushes :
    ¬ ∀ (W : Env CtlSig (Net × Bool)) (cfg : Config) (location : String) (n : Nat) (m m' : Mem)
      (s t : Net × Bool) (r : Except Error Unit),
      (run n).run.Exec (daemonEnv (occupied W (.ok cfg) location)) (m, s) r (m', t) →
        isErr r ∧ t = s := by
  intro h
  have hexec := (daemonHandler_implements (occupiedHandler_implements
    (ctlHandler Lan.linked.net (Dnsmasq.handler (.ok false))).implements_graph (.ok {})
    "/run/micronet.sock")).exec (run 0).run (.new {} .empty, firstInstance)
  have hsame := (h _ _ _ _ _ _ _ _ _ hexec).2
  have haddrs : ((run 0).run.run (daemonHandler secondInstance)
      (.new {} .empty, firstInstance)).2.2.1.addrs ≠ firstInstance.1.addrs := by decide
  exact haddrs (congrArg (fun u => u.1.addrs) hsame)

end Micronet
