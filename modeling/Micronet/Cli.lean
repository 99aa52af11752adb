import Mathlib.Data.List.Induction
import Micronet.Liveness

/-!
# The command line

Under its names `configure-ethernet` and `configure-dhcp` the program reads its own arguments:
options that take a value, and words for four of the commands, in any order.  A command line is
a list of such words in one way at most; the last value of each option and the last command
count.  One that is no such list is refused at its first argument that fits nowhere, before
anything has been done (`aliasMain_cases`).
-/
namespace Micronet
open Interaction Prog

inductive ExitCode
  | success
  | failure
deriving DecidableEq, Repr

inductive Commands
  | serve
  | run
  | apply
  | status
  | check
  | reconfigure
  | teardown
  | info
deriving DecidableEq, Repr

inductive Request
  | status
  | info
  | reconfigure
deriving DecidableEq, Repr

/-- What the command line calls.  Paths are texts. -/
inductive CliCall
  /-- `datadir::set_root`. -/
  | setRoot (dir : String)
  /-- `daemon::resolve_config`, which asks for the data root. -/
  | resolveConfig (cli : Option String)
  | resolveSocket (cli : Option String)
  /-- `daemon::run`. -/
  | run (config socket : String)
  | applyOnce (config : String)
  | teardown (config : String)
  | checkLiveness (socket config : String) (style : CheckStyle)
  | ipcCall (socket : String) (req : Request)
  /-- `serde_json::to_string_pretty`. -/
  | toStringPretty (resp : Response)
  /-- The text of `version::format_info`. -/
  | formatInfo
  | println (line : String)
  | eprintln (line : String)
  /-- `eprintln!("{e}")`. -/
  | eprintError (e : Error)

abbrev CliCall.Ret : CliCall → Type
  | .setRoot _ | .println _ | .eprintln _ | .eprintError _ => Unit
  | .resolveConfig _ | .resolveSocket _ | .formatInfo => String
  | .run _ _ => Except Error Unit
  | .applyOnce _ | .teardown _ => Except Error Status
  | .checkLiveness _ _ _ => Except Error Bool
  | .ipcCall _ _ => Except Error Response
  | .toStringPretty _ => Except Error String

abbrev CliSig : Signature := ⟨CliCall, CliCall.Ret⟩

abbrev CliCall.make (c : CliCall) : Prog CliSig c.Ret := call (S := CliSig) c

namespace Cli

/-! ## The commands -/

/-- What is shown of an error before the program fails. -/
def failWith (e : Error) : Prog CliSig ExitCode := do
  (CliCall.eprintError e).make
  return .failure

def exitOf {α : Type} : Except Error α → ExitCode
  | .ok _ => .success
  | .error _ => .failure

def dispatch (command : Commands) (config socket : String) (style : CheckStyle) :
    Prog CliSig ExitCode :=
  match command with
  | .serve | .run => return exitOf (← (CliCall.run config socket).make)
  | .apply => return exitOf (← (CliCall.applyOnce config).make)
  | .status => do
    match ← (CliCall.ipcCall socket .status).make with
    | .ok resp =>
      match ← (CliCall.toStringPretty resp).make with
      | .ok s =>
        (CliCall.println s).make
        return .success
      | .error e => failWith e
    | .error e => failWith e
  | .teardown => return exitOf (← (CliCall.teardown config).make)
  | .check => do
    match ← (CliCall.checkLiveness socket config style).make with
    | .ok true => return .success
    | .ok false => return .failure
    | .error e => failWith e
  | .reconfigure => do
    match ← (CliCall.ipcCall socket .reconfigure).make with
    | .ok (.error message) =>
      (CliCall.eprintln message).make
      return .failure
    | .ok _ => return .success
    | .error e => failWith e
  | .info => do
    let text ← CliCall.formatInfo.make
    (CliCall.println text).make
    return .success

/-! ## The arguments of an alias -/

inductive AliasOption
  | dataDir
  | config
  | socket
deriving DecidableEq, Repr

/-- What the arguments so far have set. -/
structure AliasArgs where
  dataDir : Option String := none
  config : Option String := none
  socket : Option String := none
  cmd : Commands := .apply
deriving DecidableEq

def AliasOption.arg : AliasOption → String
  | .dataDir => "--data-dir"
  | .config => "--config"
  | .socket => "--socket"

def AliasOption.ofArg (arg : String) : Option AliasOption :=
  if arg = "--data-dir" then some .dataDir
  else if arg = "--config" then some .config
  else if arg = "--socket" then some .socket
  else none

/-- The words for the commands. -/
def aliasCommand (arg : String) : Option Commands :=
  if arg = "up" ∨ arg = "configure" ∨ arg = "start" ∨ arg = "apply" then some .apply
  else if arg = "check" then some .check
  else if arg = "serve" ∨ arg = "run" then some .serve
  else if arg = "teardown" ∨ arg = "stop" then some .teardown
  else none

def AliasArgs.setOption (a : AliasArgs) (o : AliasOption) (value : String) : AliasArgs :=
  match o with
  | .dataDir => { a with dataDir := some value }
  | .config => { a with config := some value }
  | .socket => { a with socket := some value }

/-- The loop over the arguments; it ends at the first that fits nowhere. -/
def parseAlias : List String → AliasArgs → Except String AliasArgs
  | [], a => .ok a
  | arg :: rest, a =>
    match AliasOption.ofArg arg, rest with
    | some o, value :: rest => parseAlias rest (a.setOption o value)
    | _, rest =>
      match aliasCommand arg with
      | some c => parseAlias rest { a with cmd := c }
      | none => .error arg

/-- What is said of an argument that fits nowhere. -/
def complaint (argv0 arg : String) : String :=
  if arg.startsWith "-" then s!"{argv0}: unknown option {arg}"
  else s!"{argv0}: unknown command {arg}"

/-- What is done with arguments that fit. -/
def carryOut (argv0 : String) (a : AliasArgs) : Prog CliSig ExitCode := do
  (match a.dataDir with
    | some dir => (CliCall.setRoot dir).make
    | none => Pure.pure ())
  let config ← (CliCall.resolveConfig a.config).make
  let socket ← (CliCall.resolveSocket a.socket).make
  dispatch a.cmd config socket (checkStyleFromArgv0 argv0)

/-- What is done with an argument that does not. -/
def refuse (argv0 arg : String) : Prog CliSig ExitCode := do
  (CliCall.eprintln (complaint argv0 arg)).make
  return .failure

def aliasMain (argv0 : String) (args : List String) : Prog CliSig ExitCode :=
  match parseAlias args {} with
  | .ok a => carryOut argv0 a
  | .error arg => refuse argv0 arg

/-! ## The words of a command line -/

/-- An option with its value, or a word for a command. -/
inductive Word
  | option (o : AliasOption) (value : String)
  | command (name : String) (h : (aliasCommand name).isSome)

/-- The arguments that spell it. -/
def Word.args : Word → List String
  | .option o value => [o.arg, value]
  | .command name _ => [name]

def line (ws : List Word) : List String := ws.flatMap Word.args

def Word.value (o : AliasOption) : Word → Option String
  | .option o' value => if o' = o then some value else none
  | .command _ _ => none

def Word.cmd : Word → Option Commands
  | .option _ _ => none
  | .command name _ => aliasCommand name

/-- The last value of the option. -/
def lastValue (o : AliasOption) (ws : List Word) : Option String :=
  (ws.filterMap (Word.value o)).getLast?

def lastCommand (ws : List Word) : Option Commands := (ws.filterMap Word.cmd).getLast?

/-- **What a command line asks for.** -/
def asked (ws : List Word) : AliasArgs where
  dataDir := lastValue .dataDir ws
  config := lastValue .config ws
  socket := lastValue .socket ws
  cmd := (lastCommand ws).getD .apply

/-- The argument starts no word, whatever follows it. -/
def Stray (arg : String) (rest : List String) : Prop :=
  aliasCommand arg = none ∧ (AliasOption.ofArg arg = none ∨ rest = [])

/-! ## The loop reads words -/

theorem AliasOption.ofArg_eq_some {arg : String} {o : AliasOption} :
    AliasOption.ofArg arg = some o ↔ arg = o.arg := by
  constructor
  · intro h
    unfold ofArg at h
    split_ifs at h with h₁ h₂ h₃
    all_goals
      cases h
      assumption
  · rintro rfl
    cases o <;> rfl

theorem AliasOption.ofArg_of_command {arg : String} (h : (aliasCommand arg).isSome) :
    AliasOption.ofArg arg = none := by
  by_contra hne
  obtain ⟨o, ho⟩ := Option.ne_none_iff_exists'.mp hne
  rw [ofArg_eq_some] at ho
  subst ho
  cases o <;> exact absurd h (by decide)

/-- What a word sets. -/
def Word.set (a : AliasArgs) : Word → AliasArgs
  | .option o value => a.setOption o value
  | .command name h => { a with cmd := (aliasCommand name).get h }

theorem parseAlias_word (w : Word) (rest : List String) (a : AliasArgs) :
    parseAlias (w.args ++ rest) a = parseAlias rest (w.set a) := by
  cases w with
  | option o value =>
    show parseAlias (o.arg :: value :: rest) a = _
    rw [parseAlias.eq_def]
    simp only [AliasOption.ofArg_eq_some.mpr rfl]
    rfl
  | command name h =>
    obtain ⟨c, hc⟩ := Option.isSome_iff_exists.mp h
    show parseAlias (name :: rest) a = parseAlias rest { a with cmd := (aliasCommand name).get h }
    have hget : (aliasCommand name).get h = c := by simp [hc]
    rw [parseAlias.eq_def, hget]
    simp only [AliasOption.ofArg_of_command h, hc]

theorem parseAlias_line (ws : List Word) (rest : List String) (a : AliasArgs) :
    parseAlias (line ws ++ rest) a = parseAlias rest (ws.foldl Word.set a) := by
  induction ws generalizing a with
  | nil => rfl
  | cons w ws ih =>
    show parseAlias ((w.args ++ line ws) ++ rest) a = _
    rw [List.append_assoc, parseAlias_word, ih, List.foldl_cons]

theorem parseAlias_stray {arg : String} {rest : List String} (h : Stray arg rest) (a : AliasArgs) :
    parseAlias (arg :: rest) a = .error arg := by
  obtain ⟨hcommand, hoption⟩ := h
  rw [parseAlias.eq_def]
  rcases hoption with hoption | rfl
  · simp only [hoption, hcommand]
  · cases hoption : AliasOption.ofArg arg with
    | none => simp only [hoption, hcommand]
    | some o => simp only [hoption, hcommand]

/-- The last word counts. -/
theorem asked_snoc (ws : List Word) (w : Word) : asked (ws ++ [w]) = w.set (asked ws) := by
  cases w with
  | option o value =>
    cases o <;>
      simp [asked, lastValue, lastCommand, Word.value, Word.cmd, Word.set, AliasArgs.setOption]
  | command name h =>
    obtain ⟨c, hc⟩ := Option.isSome_iff_exists.mp h
    simp [asked, lastValue, lastCommand, Word.value, Word.cmd, Word.set, hc]

theorem foldl_set (ws : List Word) : ws.foldl Word.set {} = asked ws := by
  induction ws using List.reverseRecOn with
  | nil => rfl
  | append_singleton ws w ih =>
    rw [List.foldl_append, ih, asked_snoc, List.foldl_cons, List.foldl_nil]

/-! ## Every command line -/

/-- The words are read one after the other, up to the first argument that fits nowhere. -/
theorem line_or_stray (args : List String) : (∃ ws, line ws = args) ∨
    ∃ ws arg rest, line ws ++ arg :: rest = args ∧ Stray arg rest := by
  have hcons : ∀ (w : Word) (rest : List String), ((∃ ws, line ws = rest) ∨
      ∃ ws arg after, line ws ++ arg :: after = rest ∧ Stray arg after) →
      (∃ ws, line ws = w.args ++ rest) ∨
        ∃ ws arg after, line ws ++ arg :: after = w.args ++ rest ∧ Stray arg after := by
    rintro w rest (⟨ws, rfl⟩ | ⟨ws, arg, after, rfl, hstray⟩)
    · exact Or.inl ⟨w :: ws, rfl⟩
    · exact Or.inr ⟨w :: ws, arg, after, List.append_assoc _ _ _, hstray⟩
  induction args using List.twoStepInduction with
  | nil => exact Or.inl ⟨[], rfl⟩
  | singleton arg =>
    by_cases hcommand : (aliasCommand arg).isSome
    · exact hcons (.command arg hcommand) [] (Or.inl ⟨[], rfl⟩)
    · exact Or.inr ⟨[], arg, [], rfl, by simpa using hcommand, Or.inr rfl⟩
  | cons_cons arg value rest ih ih' =>
    by_cases hcommand : (aliasCommand arg).isSome
    · exact hcons (.command arg hcommand) (value :: rest) (ih' value)
    by_cases hoption : AliasOption.ofArg arg = none
    · exact Or.inr ⟨[], arg, value :: rest, rfl, by simpa using hcommand, Or.inl hoption⟩
    · obtain ⟨o, ho⟩ := Option.ne_none_iff_exists'.mp hoption
      rw [AliasOption.ofArg_eq_some] at ho
      subst ho
      exact hcons (.option o value) rest ih

/-- The first word can be told from what follows it. -/
theorem Word.eq_of_append {w w' : Word} {rest rest' : List String}
    (h : w.args ++ rest = w'.args ++ rest') : w = w' ∧ rest = rest' := by
  cases w with
  | option o value =>
    cases w' with
    | option o' value' =>
      obtain ⟨harg, h⟩ := List.cons.inj h
      obtain ⟨rfl, hrest⟩ := List.cons.inj h
      have ho := AliasOption.ofArg_eq_some.mpr harg
      rw [AliasOption.ofArg_eq_some.mpr rfl] at ho
      exact ⟨Option.some.inj ho ▸ rfl, hrest⟩
    | command name hname =>
      have hnone := AliasOption.ofArg_of_command hname
      rw [← (List.cons.inj h).1, AliasOption.ofArg_eq_some.mpr rfl] at hnone
      cases hnone
  | command name hname =>
    cases w' with
    | option o value =>
      have hnone := AliasOption.ofArg_of_command hname
      rw [(List.cons.inj h).1, AliasOption.ofArg_eq_some.mpr rfl] at hnone
      cases hnone
    | command name' hname' =>
      obtain ⟨rfl, hrest⟩ := List.cons.inj h
      exact ⟨rfl, hrest⟩

/-- A command line is a list of words in one way. -/
theorem line_injective : Function.Injective line := by
  intro ws
  induction ws with
  | nil =>
    intro ws' h
    cases ws' with
    | nil => rfl
    | cons w ws' => cases w <;> cases h
  | cons w ws ih =>
    intro ws' h
    cases ws' with
    | nil => cases w <;> cases h
    | cons w' ws' =>
      obtain ⟨rfl, hrest⟩ := Word.eq_of_append (show w.args ++ line ws = w'.args ++ line ws' from h)
      rw [ih hrest]

/-- **Every command line of an alias** is either one list of words, and then the last value of
each option and the last command are carried out, or it has an argument that fits nowhere after
the words before it, and then the program only says so and fails. -/
theorem aliasMain_cases (argv0 : String) (args : List String) :
    (∃ ws, line ws = args ∧ (∀ ws', line ws' = args → ws' = ws) ∧
      aliasMain argv0 args = carryOut argv0 (asked ws)) ∨
    ∃ ws arg rest, line ws ++ arg :: rest = args ∧ Stray arg rest ∧ (∀ ws', line ws' ≠ args) ∧
      aliasMain argv0 args = refuse argv0 arg := by
  have hok : ∀ ws, parseAlias (line ws) {} = .ok (asked ws) := by
    intro ws
    have hline := parseAlias_line ws [] {}
    rw [List.append_nil, foldl_set] at hline
    exact hline
  rcases line_or_stray args with ⟨ws, rfl⟩ | ⟨ws, arg, rest, rfl, hstray⟩
  · refine Or.inl ⟨ws, rfl, fun ws' h => line_injective h, ?_⟩
    rw [aliasMain, hok]
  · have herror : parseAlias (line ws ++ arg :: rest) {} = .error arg := by
      rw [parseAlias_line, parseAlias_stray hstray]
    refine Or.inr ⟨ws, arg, rest, rfl, hstray, fun ws' h => ?_, ?_⟩
    · rw [← h, hok] at herror
      cases herror
    · rw [aliasMain, herror]

/-- The order of the options does not matter. -/
example : aliasMain "configure-ethernet" ["--socket", "a", "check", "--config", "b"] =
    aliasMain "configure-ethernet" ["--config", "b", "--socket", "a", "check"] := rfl

end Cli
end Micronet
