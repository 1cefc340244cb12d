import ConsoleCalculator.Server.Process
import ConsoleCalculator.Server.ServerConfig

/-!
# The server's `main`

`server/main.cpp`: the configuration file is named on the command line, the configuration is loaded
from it and from the environment, and `ServiceApplication::run` does the rest. An exception of any
of these ends the process with 1.

* A command line is made of options with their value and of words that are none (`Argument`), and
  perhaps of an option at its end that has no value. Options pair with their values from the left:
  the value of an option may be spelled like one.

Results:
* `configPath_words`, `exists_arguments`: which file is read, for every command line.
* **`main_exit`**: the exit code of the whole program.
-/

namespace ConsoleCalculator

open Base RequestHandler ServiceApplication

/-- The path that is used when none is given. -/
def defaultConfigPath : String := "/etc/console-calculator/server.conf"

/-- The words that announce a path. -/
def isConfigOption (argument : String) : Bool := argument == "--config" || argument == "-c"

/-- The loop of `config_path_from_args`, over the arguments from `index` on. -/
def scanArguments (configPath : String) : List String → String
  | argument :: value :: rest =>
    if isConfigOption argument then scanArguments value rest
    else scanArguments configPath (value :: rest)
  | _ => configPath

/-- `config_path_from_args`. -/
def configPathFromArgs (argv : List String) : String := scanArguments defaultConfigPath argv.tail

/-! ## Command lines -/

/-- A part of a command line. -/
inductive Argument where
  | config (option value : String) (h : isConfigOption option = true)
  | other (word : String) (h : isConfigOption word = false)

namespace Argument

def words : Argument → List String
  | .config option value _ => [option, value]
  | .other word _ => [word]

def value? : Argument → Option String
  | .config _ value _ => some value
  | .other _ _ => none

end Argument

/-- The path that the parts of a command line give: that of the last option. -/
def chosenPath (arguments : List Argument) : String :=
  (arguments.filterMap Argument.value?).getLast?.getD defaultConfigPath

/-- What may be left at the end of a command line: an option without a value. -/
def Dangling (rest : List String) : Prop :=
  rest = [] ∨ ∃ option, isConfigOption option = true ∧ rest = [option]

theorem scan_other {word : String} (h : isConfigOption word = false) (path : String)
    (rest : List String) : scanArguments path (word :: rest) = scanArguments path rest := by
  cases rest with
  | nil => rfl
  | cons value rest => simp [scanArguments, h]

theorem scan_words (arguments : List Argument) {rest : List String} (hrest : Dangling rest)
    (path : String) :
    scanArguments path (arguments.flatMap Argument.words ++ rest) =
      (arguments.filterMap Argument.value?).getLast?.getD path := by
  induction arguments generalizing path with
  | nil => rcases hrest with rfl | ⟨option, -, rfl⟩ <;> rfl
  | cons argument arguments ih =>
    cases argument with
    | config option value h =>
      show scanArguments path (option :: value :: (arguments.flatMap Argument.words ++ rest)) =
        (value :: arguments.filterMap Argument.value?).getLast?.getD path
      rw [scanArguments, if_pos h, ih, List.getLast?_cons, Option.getD_some]
    | other word h => exact (scan_other h path _).trans (ih path)

/-- **The last option names the file.** -/
theorem configPath_words (program : String) (arguments : List Argument) {rest : List String}
    (hrest : Dangling rest) :
    configPathFromArgs (program :: (arguments.flatMap Argument.words ++ rest)) =
      chosenPath arguments :=
  scan_words arguments hrest defaultConfigPath

/-- Every command line is made of such parts. -/
theorem exists_arguments : ∀ words : List String, ∃ (arguments : List Argument)
    (rest : List String), Dangling rest ∧ words = arguments.flatMap Argument.words ++ rest
  | [] => ⟨[], [], Or.inl rfl, rfl⟩
  | [word] => by
    cases h : isConfigOption word with
    | true => exact ⟨[], [word], Or.inr ⟨word, h, rfl⟩, rfl⟩
    | false => exact ⟨[.other word h], [], Or.inl rfl, rfl⟩
  | word :: value :: more => by
    cases h : isConfigOption word with
    | true =>
      obtain ⟨arguments, rest, hrest, hmore⟩ := exists_arguments more
      exact ⟨.config word value h :: arguments, rest, hrest, by rw [hmore]; rfl⟩
    | false =>
      obtain ⟨arguments, rest, hrest, hmore⟩ := exists_arguments (value :: more)
      exact ⟨.other word h :: arguments, rest, hrest, by rw [hmore]; rfl⟩

/-! ## The program -/

/-- What `main` returns after these steps of its threads, `none` as long as `run` has not returned.
The events count from the call of `run` on. -/
def mainExitCode (M : CalculatorMath) (lib : Protocol)
    (environment files : String → Option String) (argv : List String) (history : OperationHistory)
    (es : List ProcessEvent) : Option ℕ :=
  match ServerConfig.fromEnvironmentAndFile environment files (configPathFromArgs argv) with
  | .error _ => some 1
  | .ok config =>
    ((ServiceProcess.launch history).run M lib config.workerThreads es).bind
      ServiceProcess.exitCode

/-- **How the program ends.** For every command line, environment and set of files:

* a number that cannot be read, in the file that the last `--config` or `-c` names or in the
  environment, ends the program with 1, and no thread is started;
* if it ends with 0, then every setting had the value of its variable, of the last line of that file
  with its key, or its default; the service ran with `max(1, worker_threads)` network threads, got a
  signal, and had answered every request it picked up, once. -/
theorem main_exit (M : CalculatorMath) (lib : Protocol)
    (environment files : String → Option String) (history : OperationHistory)
    (es : List ProcessEvent) (program : String) (arguments : List Argument) (rest : List String)
    (hrest : Dangling rest) :
    ((∃ (n : NumericSetting) (raw : String), n.read raw = none ∧
        (raw ∈ valuesFor (Setting.number n).key (linesOf (files (chosenPath arguments))) ∨
          environment (Setting.number n).envVar = some raw ∧ raw ≠ "")) →
      mainExitCode M lib environment files
        (program :: (arguments.flatMap Argument.words ++ rest)) history es = some 1) ∧
    (mainExitCode M lib environment files
        (program :: (arguments.flatMap Argument.words ++ rest)) history es = some 0 →
      ∃ (config : ServerConfig) (p : ServiceProcess),
        (∀ s, match effectiveText environment (linesOf (files (chosenPath arguments))) s with
          | some raw => s.read raw = some (config.get s)
          | none => config.get s = ServerConfig.get {} s) ∧
        (ServiceProcess.launch history).run M lib config.workerThreads es = some p ∧
        p.application.threads.length = TcpJsonServer.threadCount config.workerThreads ∧
        (∃ signal, .signal (.send signal) ∈ es) ∧
        ∃ w, AtomicService.run M lib history (served M lib config.workerThreads history
            (ServiceProcess.applicationEvents M lib config.workerThreads history es)) = some w ∧
          Matches p.application w ∧ w.taken = es.filterMap ServiceProcess.requestOf ∧
          (w.answered.map Prod.fst).Perm (List.range w.taken.length)) := by
  unfold mainExitCode
  rw [configPath_words program arguments hrest]
  constructor
  · intro hrejected
    obtain ⟨e, he⟩ := load_error_iff.mpr hrejected
    rw [he]
  · intro hzero
    split at hzero
    · cases hzero
    · rename_i config hload
      obtain ⟨p, hrun, hexit⟩ := Option.bind_eq_some_iff.mp hzero
      obtain ⟨hm, hunwinding⟩ := ServiceProcess.ended_of_exitCode hexit
      have hcrew :=
        (ServiceProcess.kept_run (ServiceProcess.kept_launch lib _ history) hrun).crewed
      obtain ⟨signal, -, hsent⟩ := ServiceProcess.sent_of_ended hrun hm (hunwinding rfl)
      refine ⟨config, p, load_value hload, hrun, ?_, ⟨signal, hsent⟩,
        ServiceProcess.answered_of_ended hrun hm⟩
      exact hcrew.full (Or.inr ⟨by simp [hm, Up], hunwinding rfl⟩)

/-- A file with one setting. -/
def oneThread (path : String) : Option String :=
  if path = "a.conf" then some "worker_threads = 1" else none

/-- The last option has no value, so the first one counts. The one request is answered. -/
theorem main_exit_one_thread :
    mainExitCode .checked sampleProtocol (fun _ => none) oneThread
        ["server", "-c", "a.conf", "--config"] .empty ServiceProcess.signalInFlight = some 0 ∧
      ∃ config p, (ServiceProcess.launch .empty).run .checked sampleProtocol
          (ServerConfig.workerThreads config) ServiceProcess.signalInFlight = some p ∧
        p.application.threads.length = TcpJsonServer.threadCount config.workerThreads ∧
        ∃ w, Matches p.application w ∧ w.taken = [⟨"1+2", ⟨0, 0⟩⟩] ∧
          (w.answered.map Prod.fst).Perm [0] := by
  have hexit : mainExitCode .checked sampleProtocol (fun _ => none) oneThread
      ["server", "-c", "a.conf", "--config"] .empty ServiceProcess.signalInFlight = some 0 := by
    decide +kernel
  obtain ⟨config, p, -, hrun, hlength, -, w, -, hw, htaken, hanswered⟩ :=
    (main_exit .checked sampleProtocol (fun _ => none) oneThread .empty
      ServiceProcess.signalInFlight "server" [.config "-c" "a.conf" rfl] ["--config"]
      (Or.inr ⟨"--config", rfl, rfl⟩)).2 hexit
  have hone : w.taken = [⟨"1+2", ⟨0, 0⟩⟩] := htaken
  rw [hone] at hanswered
  exact ⟨hexit, config, p, hrun, hlength, w, hw, hone, hanswered⟩

end ConsoleCalculator
