import ConsoleCalculator.Base.Assignments
import ConsoleCalculator.Base.Separated
import ConsoleCalculator.Storage.Postgres

/-!
# The configuration of the server

Model of `ServerConfig` (`server/include/server-config.h`, `server/src/server-config.cpp`): the
configuration file, the environment, and what becomes of them.

* `files path` is what an `std::ifstream` on `path` reads, `none` if it does not open; `environment`
  is `std::getenv`. Strings that are taken apart are lists of characters.
* `fromFile` and `fromEnvironmentAndFile` keep the two lists of branches of the source.

Above it stands what a configuration is: a value for each of twelve settings (`Setting`), each with
a key in the file, a variable in the environment and a way to read its text (`Setting.read`).

* `keyValue` is the key and the value in a line, without the steps by which `from_file` gets there.
* `applyKeyValue_eq`, `applyEnvironment_eq`: the two lists name the same settings, and set them
  alike.
* `fromEnvironmentAndFile_sets`: seen through `ServerConfig.get`, loading is a sequence of
  assignments (`Base.Assigns`), first those of the file, then those of the environment.

Results:
* `load_error_iff`, `load_value`: when loading throws, and where each value comes from.
* **`config_precedence`**: environment, then the last line of the file, then the default, setting by
  setting; the order of lines with different keys, and lines without a setting, do not matter.
-/

namespace ConsoleCalculator

open Base

/-! ## Text -/

/-- `is_space` of `trim`. -/
def isBlank (c : Char) : Bool := c == ' ' || c == '\t' || c == '\n' || c == '\r'

/-- `trim`. -/
def trim (value : List Char) : List Char := (value.dropWhile isBlank).rdropWhile isBlank

/-- The text is enclosed in two of these quotes. -/
def enclosedIn (quote : Char) (value : List Char) : Bool :=
  value.head? == some quote && value.getLast? == some quote

/-- `unquote`. -/
def unquote (value : List Char) : List Char :=
  let value := trim value
  if decide (2 ≤ value.length) && (enclosedIn '"' value || enclosedIn '\'' value) then
    value.tail.dropLast
  else value

/-- The lines `while (std::getline(input, line))` goes through: nothing comes after the last
newline. -/
def getlines (content : List Char) : List (List Char) :=
  let pieces := content.splitOn '\n'
  if pieces.getLast? = some [] then pieces.dropLast else pieces

/-- `std::stoul` and `std::stoull`, which throw a `std::exception`. -/
def stoulOrThrow (name text : String) : Except Exception UInt64 :=
  match stoul text with
  | some n => .ok n
  | none => .error (.foreign (.std name))

/-- `parse_uint16`. -/
def parseUint16 (value fieldName : String) : Except Exception UInt16 := do
  let parsed ← stoulOrThrow "stoul" value
  if parsed > 65535 then
    throw (.foreign (.std (fieldName ++ " is out of uint16 range")))
  return parsed.toUInt16

/-! ## Loading -/

/-- `ServerConfig`, with its defaults. -/
structure ServerConfig where
  host : String := "0.0.0.0"
  port : UInt16 := 5555
  workerThreads : Int32 := 4
  maxMessageSize : UInt64 := 64 * 1024
  logFile : String := "/var/log/console-calculator/server.log"
  databaseHost : String := "localhost"
  databasePort : UInt16 := 5432
  databaseName : String := "console_calculator"
  databaseUser : String := "admin"
  databasePassword : String := ""
  databasePasswordFile : String := "/run/secrets/cc_db_password"
  explicitDatabaseConnectionString : String := ""
  deriving DecidableEq, Repr

namespace ServerConfig

/-- `apply_key_value`. -/
def applyKeyValue (config : ServerConfig) (key value : String) : Except Exception ServerConfig :=
  if key = "host" then .ok { config with host := value }
  else if key = "port" then
    (parseUint16 value "port").map fun v => { config with port := v }
  else if key = "worker_threads" then
    (stoiOrThrow value).map fun v => { config with workerThreads := v }
  else if key = "max_message_size" then
    (stoulOrThrow "stoull" value).map fun v => { config with maxMessageSize := v }
  else if key = "log_file" then .ok { config with logFile := value }
  else if key = "database_host" then .ok { config with databaseHost := value }
  else if key = "database_port" then
    (parseUint16 value "database_port").map fun v => { config with databasePort := v }
  else if key = "database_name" then .ok { config with databaseName := value }
  else if key = "database_user" then .ok { config with databaseUser := value }
  else if key = "database_password" then .ok { config with databasePassword := value }
  else if key = "database_password_file" then .ok { config with databasePasswordFile := value }
  else if key = "database_connection_string" then
    .ok { config with explicitDatabaseConnectionString := value }
  else .ok config

/-- The body of the loop of `from_file`. -/
def applyLine (config : ServerConfig) (line : List Char) : Except Exception ServerConfig :=
  let line := trim (line.takeWhile (· != '#'))
  if line.isEmpty then .ok config
  else
    match line.idxOf? '=' with
    | none => .ok config
    | some separator =>
      let key := trim (line.take separator)
      let value := unquote (line.drop (separator + 1))
      applyKeyValue config (String.ofList key) (String.ofList value)

/-- `ServerConfig::from_file`. -/
def fromFile (files : String → Option String) (path : String) : Except Exception ServerConfig :=
  match files path with
  | none => .ok {}
  | some content => (getlines content.toList).foldlM applyLine {}

/-- `environment_value`. -/
def environmentValue (environment : String → Option String) (name : String) : Option String :=
  match environment name with
  | none => none
  | some value => if value = "" then none else some value

/-- `if (const char* value = environment_value(name)) { … }`. -/
def override (environment : String → Option String) (name : String)
    (set : ServerConfig → String → Except Exception ServerConfig) (config : ServerConfig) :
    Except Exception ServerConfig :=
  match environmentValue environment name with
  | none => .ok config
  | some value => set config value

/-- The second part of `from_environment_and_file`. -/
def applyEnvironment (environment : String → Option String) (config : ServerConfig) :
    Except Exception ServerConfig := do
  let config ← override environment "CC_SERVER_HOST"
    (fun c v => .ok { c with host := v }) config
  let config ← override environment "CC_SERVER_PORT"
    (fun c v => (parseUint16 v "CC_SERVER_PORT").map fun n => { c with port := n }) config
  let config ← override environment "CC_SERVER_WORKER_THREADS"
    (fun c v => (stoiOrThrow v).map fun n => { c with workerThreads := n }) config
  let config ← override environment "CC_SERVER_MAX_MESSAGE_SIZE"
    (fun c v => (stoulOrThrow "stoull" v).map fun n => { c with maxMessageSize := n }) config
  let config ← override environment "CC_SERVER_LOG_FILE"
    (fun c v => .ok { c with logFile := v }) config
  let config ← override environment "CC_DB_HOST"
    (fun c v => .ok { c with databaseHost := v }) config
  let config ← override environment "CC_DB_PORT"
    (fun c v => (parseUint16 v "CC_DB_PORT").map fun n => { c with databasePort := n }) config
  let config ← override environment "CC_DB_NAME"
    (fun c v => .ok { c with databaseName := v }) config
  let config ← override environment "CC_DB_USER"
    (fun c v => .ok { c with databaseUser := v }) config
  let config ← override environment "CC_DB_PASSWORD"
    (fun c v => .ok { c with databasePassword := v }) config
  let config ← override environment "CC_DB_PASSWORD_FILE"
    (fun c v => .ok { c with databasePasswordFile := v }) config
  override environment "CC_DB_CONNECTION_STRING"
    (fun c v => .ok { c with explicitDatabaseConnectionString := v }) config

/-- `ServerConfig::from_environment_and_file`. -/
def fromEnvironmentAndFile (environment files : String → Option String) (path : String) :
    Except Exception ServerConfig := do
  let config ← fromFile files path
  applyEnvironment environment config

end ServerConfig

/-! ## Settings -/

/-- The settings that are texts. -/
inductive TextSetting where
  | host
  | logFile
  | databaseHost
  | databaseName
  | databaseUser
  | databasePassword
  | databasePasswordFile
  | databaseConnectionString
  deriving DecidableEq, Repr

/-- The settings that are numbers. -/
inductive NumericSetting where
  | port
  | workerThreads
  | maxMessageSize
  | databasePort
  deriving DecidableEq, Repr

/-- A setting. -/
inductive Setting where
  | text (setting : TextSetting)
  | number (setting : NumericSetting)
  deriving DecidableEq, Repr

/-- The value of a setting. -/
inductive SettingValue where
  | text (value : String)
  | number (value : ℤ)
  deriving DecidableEq, Repr

/-- The key of a setting in the file. -/
def Setting.key : Setting → String
  | .text .host => "host"
  | .text .logFile => "log_file"
  | .text .databaseHost => "database_host"
  | .text .databaseName => "database_name"
  | .text .databaseUser => "database_user"
  | .text .databasePassword => "database_password"
  | .text .databasePasswordFile => "database_password_file"
  | .text .databaseConnectionString => "database_connection_string"
  | .number .port => "port"
  | .number .workerThreads => "worker_threads"
  | .number .maxMessageSize => "max_message_size"
  | .number .databasePort => "database_port"

/-- The variable of a setting in the environment. -/
def Setting.envVar : Setting → String
  | .text .host => "CC_SERVER_HOST"
  | .text .logFile => "CC_SERVER_LOG_FILE"
  | .text .databaseHost => "CC_DB_HOST"
  | .text .databaseName => "CC_DB_NAME"
  | .text .databaseUser => "CC_DB_USER"
  | .text .databasePassword => "CC_DB_PASSWORD"
  | .text .databasePasswordFile => "CC_DB_PASSWORD_FILE"
  | .text .databaseConnectionString => "CC_DB_CONNECTION_STRING"
  | .number .port => "CC_SERVER_PORT"
  | .number .workerThreads => "CC_SERVER_WORKER_THREADS"
  | .number .maxMessageSize => "CC_SERVER_MAX_MESSAGE_SIZE"
  | .number .databasePort => "CC_DB_PORT"

/-- The settings, in the order of `from_environment_and_file`. -/
def Setting.all : List Setting :=
  [.text .host, .number .port, .number .workerThreads, .number .maxMessageSize, .text .logFile,
    .text .databaseHost, .number .databasePort, .text .databaseName, .text .databaseUser,
    .text .databasePassword, .text .databasePasswordFile, .text .databaseConnectionString]

/-- The number a text stands for, `none` if it is rejected. -/
def NumericSetting.read : NumericSetting → String → Option ℤ
  | .port, raw => ((stoul raw).filter (· ≤ 65535)).map fun n => n.toNat
  | .workerThreads, raw => (stoi raw).map fun n => n.toInt
  | .maxMessageSize, raw => (stoul raw).map fun n => n.toNat
  | .databasePort, raw => ((stoul raw).filter (· ≤ 65535)).map fun n => n.toNat

/-- The value a text stands for. Every text stands for itself. -/
def Setting.read : Setting → String → Option SettingValue
  | .text _, raw => some (.text raw)
  | .number setting, raw => (setting.read raw).map .number

/-- The value of a setting in a configuration. -/
def ServerConfig.get (config : ServerConfig) : Setting → SettingValue
  | .text .host => .text config.host
  | .text .logFile => .text config.logFile
  | .text .databaseHost => .text config.databaseHost
  | .text .databaseName => .text config.databaseName
  | .text .databaseUser => .text config.databaseUser
  | .text .databasePassword => .text config.databasePassword
  | .text .databasePasswordFile => .text config.databasePasswordFile
  | .text .databaseConnectionString => .text config.explicitDatabaseConnectionString
  | .number .port => .number config.port.toNat
  | .number .workerThreads => .number config.workerThreads.toInt
  | .number .maxMessageSize => .number config.maxMessageSize.toNat
  | .number .databasePort => .number config.databasePort.toNat

/-- The type a number is stored in. -/
@[reducible] def NumericSetting.Stored : NumericSetting → Type
  | .port => UInt16
  | .workerThreads => Int32
  | .maxMessageSize => UInt64
  | .databasePort => UInt16

def NumericSetting.toInt : (n : NumericSetting) → n.Stored → ℤ
  | .port, v => v.toNat
  | .workerThreads, v => v.toInt
  | .maxMessageSize, v => v.toNat
  | .databasePort, v => v.toNat

/-- How a number is parsed; `fieldName` is for the exception. -/
def NumericSetting.parse (fieldName raw : String) : (n : NumericSetting) → Except Exception n.Stored
  | .port => parseUint16 raw fieldName
  | .workerThreads => stoiOrThrow raw
  | .maxMessageSize => stoulOrThrow "stoull" raw
  | .databasePort => parseUint16 raw fieldName

namespace ServerConfig

/-- The setters, by setting. -/
def setText (config : ServerConfig) (value : String) : TextSetting → ServerConfig
  | .host => { config with host := value }
  | .logFile => { config with logFile := value }
  | .databaseHost => { config with databaseHost := value }
  | .databaseName => { config with databaseName := value }
  | .databaseUser => { config with databaseUser := value }
  | .databasePassword => { config with databasePassword := value }
  | .databasePasswordFile => { config with databasePasswordFile := value }
  | .databaseConnectionString => { config with explicitDatabaseConnectionString := value }

def setNumber (config : ServerConfig) : (n : NumericSetting) → n.Stored → ServerConfig
  | .port, v => { config with port := v }
  | .workerThreads, v => { config with workerThreads := v }
  | .maxMessageSize, v => { config with maxMessageSize := v }
  | .databasePort, v => { config with databasePort := v }

/-- Set one setting from its text. -/
def assign (config : ServerConfig) (fieldName raw : String) :
    Setting → Except Exception ServerConfig
  | .text setting => .ok (config.setText raw setting)
  | .number setting => (setting.parse fieldName raw).map (config.setNumber setting)

end ServerConfig

/-- The setting with this key. -/
def Setting.ofKey (key : String) : Option Setting := all.find? fun s => s.key = key

/-! ## Lines -/

/-- The key and the value in a line: the trimmed texts before and after the first `=`, once
everything from the first `#` is removed; the value without one pair of quotes around it. -/
def keyValue (line : List Char) : Option (String × String) :=
  let text := line.takeWhile (· != '#')
  if '=' ∈ text then
    some (String.ofList (trim (text.takeWhile (· != '='))),
      String.ofList (unquote ((text.dropWhile (· != '=')).drop 1)))
  else none

def lineKey (line : List Char) : Option String := (keyValue line).map Prod.fst

/-- The lines of a file, which are the texts between its newlines; one that does not open counts as
empty. -/
def linesOf (content : Option String) : List (List Char) := (content.getD "").toList.splitOn '\n'

/-- The lines with this key, in order. -/
def linesFor (key : String) (lines : List (List Char)) : List (List Char) :=
  lines.filter fun line => lineKey line = some key

/-- The values of the lines with this key, in order. -/
def valuesFor (key : String) (lines : List (List Char)) : List String :=
  lines.filterMap fun line =>
    match keyValue line with
    | none => none
    | some kv => if kv.1 = key then some kv.2 else none

/-- The settings a line gives, with their texts: one or none. -/
def lineAssignments (line : List Char) : List (Setting × String) :=
  match keyValue line with
  | none => []
  | some kv => (Setting.ofKey kv.1).toList.map fun s => (s, kv.2)

/-- The settings the environment gives. -/
def environmentAssignments (environment : String → Option String) : List (Setting × String) :=
  Setting.all.flatMap fun s =>
    (ServerConfig.environmentValue environment s.envVar).toList.map (s, ·)

/-- What is around a character that stays. -/
theorem trim_around {c : Char} (hc : isBlank c = false) (a b : List Char) :
    trim (a ++ c :: b) = a.dropWhile isBlank ++ c :: b.rdropWhile isBlank := by
  rw [trim, dropWhile_append_cons hc, rdropWhile_append_cons hc]

theorem trim_dropWhile (a : List Char) : trim (a.dropWhile isBlank) = trim a := by
  rw [trim, List.dropWhile_idempotent, trim]

/-- Blanks at the end do not matter. -/
theorem trim_append_blank {b : List Char} (hb : ∀ c ∈ b, isBlank c = true) (a : List Char) :
    trim (a ++ b) = trim a := by
  by_cases h : ∀ c ∈ a, isBlank c = true
  · have hab : ∀ c ∈ a ++ b, isBlank c = true := fun c hc =>
      (List.mem_append.mp hc).elim (h c) (hb c)
    rw [trim, trim, List.dropWhile_eq_nil_iff.mpr h, List.dropWhile_eq_nil_iff.mpr hab]
  · simp only [not_forall, Bool.not_eq_true] at h
    obtain ⟨c, hmem, hc⟩ := h
    obtain ⟨x, y, rfl⟩ := List.append_of_mem hmem
    have hdrop : (y ++ b).rdropWhile isBlank = y.rdropWhile isBlank := by
      unfold List.rdropWhile
      rw [List.reverse_append, List.dropWhile_append_of_pos fun c hc =>
        hb c (List.mem_reverse.mp hc)]
    rw [List.append_assoc, List.cons_append, trim_around hc, trim_around hc, hdrop]

theorem trim_rdropWhile (b : List Char) : trim (b.rdropWhile isBlank) = trim b := by
  have hblank : ∀ c ∈ b.rtakeWhile isBlank, isBlank c = true := fun c hc =>
    List.mem_rtakeWhile_imp hc
  rw [← trim_append_blank hblank, List.rdropWhile_append_rtakeWhile]

theorem unquote_rdropWhile (b : List Char) : unquote (b.rdropWhile isBlank) = unquote b := by
  unfold unquote
  rw [trim_rdropWhile]

theorem mem_of_mem_trim {c : Char} {value : List Char} (h : c ∈ trim value) : c ∈ value :=
  (List.dropWhile_sublist _).mem ((List.rdropWhile_prefix _ _).mem h)

theorem keyValue_of_mem {line a b : List Char}
    (hline : line.takeWhile (· != '#') = a ++ '=' :: b) (ha : '=' ∉ a) :
    keyValue line = some (String.ofList (trim a), String.ofList (unquote b)) := by
  unfold keyValue
  simp only [hline]
  rw [if_pos (by simp), takeWhile_append_cons ha, dropWhile_ne_append_cons ha]
  rfl

/-- **The steps of `from_file` come to the key and the value.** -/
theorem applyLine_eq (config : ServerConfig) (line : List Char) :
    config.applyLine line =
      match keyValue line with
      | none => .ok config
      | some kv => config.applyKeyValue kv.1 kv.2 := by
  by_cases hmem : '=' ∈ line.takeWhile (· != '#')
  · obtain ⟨a, b, hline, ha⟩ := List.eq_append_cons_of_mem hmem
    have ha' : '=' ∉ a.dropWhile isBlank := fun h => ha ((List.dropWhile_sublist _).mem h)
    rw [keyValue_of_mem hline ha]
    simp only [ServerConfig.applyLine]
    rw [hline, trim_around (by decide), idxOf?_append_cons ha']
    simp [trim_dropWhile, unquote_rdropWhile]
  · have hnone : (trim (line.takeWhile (· != '#'))).idxOf? '=' = none :=
      List.idxOf?_eq_none_iff.mpr fun h => hmem (mem_of_mem_trim h)
    have hkey : keyValue line = none := if_neg hmem
    rw [hkey]
    simp only [ServerConfig.applyLine]
    rw [hnone]
    simp

/-- `std::getline` goes through these lines, but for an empty one at the end. -/
theorem splitOn_getlines (content : List Char) :
    content.splitOn '\n' = getlines content ∨ content.splitOn '\n' = getlines content ++ [[]] := by
  unfold getlines
  by_cases h : (content.splitOn '\n').getLast? = some []
  · rw [if_pos h]
    exact Or.inr (List.dropLast_append_getLast? [] h).symm
  · rw [if_neg h]
    exact Or.inl rfl

/-- **`from_file` goes through the lines of the file.** -/
theorem fromFile_lines (files : String → Option String) (path : String) :
    ServerConfig.fromFile files path =
      (linesOf (files path)).foldlM ServerConfig.applyLine {} := by
  unfold ServerConfig.fromFile linesOf
  cases files path with
  | none => rfl
  | some content =>
    -- an empty line does nothing
    have hempty : ∀ config : ServerConfig, [[]].foldlM ServerConfig.applyLine config = .ok config :=
      fun config => rfl
    rcases splitOn_getlines content.toList with h | h
    · simp [h]
    · simp only [Option.getD_some, h, List.foldlM_append, hempty]
      exact (bind_pure _).symm

/-! ## Loading is a sequence of assignments -/

theorem Setting.mem_all (s : Setting) : s ∈ Setting.all := by
  rcases s with (_ | _ | _ | _ | _ | _ | _ | _) | (_ | _ | _ | _) <;> decide

theorem Setting.nodup_all : Setting.all.Nodup := by decide

theorem Setting.ofKey_key (s : Setting) : Setting.ofKey s.key = some s := by
  rcases s with (_ | _ | _ | _ | _ | _ | _ | _) | (_ | _ | _ | _) <;> rfl

theorem Setting.ofKey_eq_some_iff {key : String} {s : Setting} :
    Setting.ofKey key = some s ↔ key = s.key := by
  constructor
  · intro h
    have hkey := List.find?_some h
    exact (of_decide_eq_true hkey).symm
  · rintro rfl
    exact s.ofKey_key

theorem ServerConfig.get_injective : Function.Injective ServerConfig.get := by
  intro c c' h
  have htext : ∀ t, c.get (.text t) = c'.get (.text t) := fun t => congrFun h _
  have hnumber : ∀ n, c.get (.number n) = c'.get (.number n) := fun n => congrFun h _
  have hport := Int.ofNat.inj (SettingValue.number.inj (hnumber .port))
  have hthreads := SettingValue.number.inj (hnumber .workerThreads)
  have hsize := Int.ofNat.inj (SettingValue.number.inj (hnumber .maxMessageSize))
  have hdatabasePort := Int.ofNat.inj (SettingValue.number.inj (hnumber .databasePort))
  cases c
  cases c'
  congr 1
  · exact SettingValue.text.inj (htext .host)
  · exact UInt16.toNat_inj.mp hport
  · exact Int32.toInt_inj.mp hthreads
  · exact UInt64.toNat_inj.mp hsize
  · exact SettingValue.text.inj (htext .logFile)
  · exact SettingValue.text.inj (htext .databaseHost)
  · exact UInt16.toNat_inj.mp hdatabasePort
  · exact SettingValue.text.inj (htext .databaseName)
  · exact SettingValue.text.inj (htext .databaseUser)
  · exact SettingValue.text.inj (htext .databasePassword)
  · exact SettingValue.text.inj (htext .databasePasswordFile)
  · exact SettingValue.text.inj (htext .databaseConnectionString)

/-- Carries out assignments of settings. -/
abbrev Sets (as : List (Setting × String)) (config : ServerConfig)
    (out : Except Exception ServerConfig) : Prop :=
  Assigns Setting.read ServerConfig.get as config out

/-- A configuration that differs in one setting. -/
theorem get_eq_update {config config' : ServerConfig} {s : Setting} {v : SettingValue}
    (hs : config'.get s = v) (hne : ∀ s', s' ≠ s → config'.get s' = config.get s') :
    config'.get = Function.update config.get s v := by
  funext s'
  by_cases h : s' = s
  · rw [h, Function.update_self, hs]
  · rw [Function.update_of_ne h, hne s' h]

theorem get_setText (config : ServerConfig) (value : String) (t : TextSetting) :
    (config.setText value t).get = Function.update config.get (.text t) (.text value) := by
  refine get_eq_update (by cases t <;> rfl) fun s' h => ?_
  cases s' with
  | number n => cases t <;> cases n <;> rfl
  | text t' =>
    have hne : t' ≠ t := fun he => h (he ▸ rfl)
    cases t <;> cases t' <;> first | rfl | exact absurd rfl hne

theorem get_setNumber (config : ServerConfig) (n : NumericSetting) (v : n.Stored) :
    (config.setNumber n v).get =
      Function.update config.get (.number n) (.number (n.toInt v)) := by
  refine get_eq_update (by cases n <;> rfl) fun s' h => ?_
  cases s' with
  | text t => cases n <;> cases t <;> rfl
  | number n' =>
    have hne : n' ≠ n := fun he => h (he ▸ rfl)
    cases n <;> cases n' <;> first | rfl | exact absurd rfl hne

theorem stoulOrThrow_toOption (name text : String) :
    (stoulOrThrow name text).toOption = stoul text := by
  unfold stoulOrThrow
  cases stoul text <;> rfl

theorem stoiOrThrow_toOption (text : String) : (stoiOrThrow text).toOption = stoi text := by
  unfold stoiOrThrow
  cases stoi text <;> rfl

/-- What `parse_uint16` accepts, and what it makes of it. -/
theorem parseUint16_toOption (value fieldName : String) :
    (parseUint16 value fieldName).toOption.map (fun n => (n.toNat : ℤ)) =
      ((stoul value).filter (· ≤ 65535)).map fun n => (n.toNat : ℤ) := by
  unfold parseUint16 stoulOrThrow
  cases stoul value with
  | none => rfl
  | some n =>
    by_cases h : n ≤ 65535
    · have hnot : ¬ n > 65535 := UInt64.not_lt.mpr h
      have hlt : n.toNat ≤ 65535 := UInt64.le_iff_toNat_le.mp h
      have hn : n.toUInt16.toNat = n.toNat := by
        rw [UInt64.toNat_toUInt16]
        omega
      simp [bind, Except.bind, pure, Except.pure, hnot, h, Except.toOption, hn]
    · have hgt : n > 65535 := UInt64.not_le.mp h
      simp [bind, Except.bind, hgt, Except.toOption, throw, throwThe, MonadExceptOf.throw]

/-- What is parsed is what is read, and throws where it is rejected. -/
theorem parse_toOption (fieldName raw : String) (n : NumericSetting) :
    (n.parse fieldName raw).toOption.map n.toInt = n.read raw := by
  cases n with
  | port => exact parseUint16_toOption raw fieldName
  | workerThreads => exact congrArg (Option.map _) (stoiOrThrow_toOption raw)
  | maxMessageSize => exact congrArg (Option.map _) (stoulOrThrow_toOption _ raw)
  | databasePort => exact parseUint16_toOption raw fieldName

theorem assign_sets (config : ServerConfig) (fieldName raw : String) (s : Setting) :
    Sets [(s, raw)] config (config.assign fieldName raw s) := by
  cases s with
  | text t => exact .one rfl (get_setText config raw t)
  | number n =>
    have hread : Setting.read (.number n) raw =
        ((n.parse fieldName raw).toOption.map n.toInt).map .number :=
      congrArg (Option.map SettingValue.number) (parse_toOption fieldName raw n).symm
    simp only [ServerConfig.assign]
    cases hparse : n.parse fieldName raw with
    | ok v =>
      rw [hparse] at hread
      exact .one hread (get_setNumber config n v)
    | error e =>
      rw [hparse] at hread
      exact .rejected hread

/-- **The branches of `apply_key_value`**, one for each setting. -/
theorem applyKeyValue_eq (config : ServerConfig) (key value : String) :
    config.applyKeyValue key value =
      match Setting.ofKey key with
      | none => .ok config
      | some s => config.assign s.key value s := by
  cases hkey : Setting.ofKey key with
  | some s =>
    rw [Setting.ofKey_eq_some_iff.mp hkey]
    rcases s with (_ | _ | _ | _ | _ | _ | _ | _) | (_ | _ | _ | _) <;> rfl
  | none =>
    have hne : ∀ s : Setting, key ≠ s.key := by
      rintro s rfl
      rw [s.ofKey_key] at hkey
      cases hkey
    simp only [ServerConfig.applyKeyValue, show key ≠ "host" from hne (.text .host),
      show key ≠ "port" from hne (.number .port),
      show key ≠ "worker_threads" from hne (.number .workerThreads),
      show key ≠ "max_message_size" from hne (.number .maxMessageSize),
      show key ≠ "log_file" from hne (.text .logFile),
      show key ≠ "database_host" from hne (.text .databaseHost),
      show key ≠ "database_port" from hne (.number .databasePort),
      show key ≠ "database_name" from hne (.text .databaseName),
      show key ≠ "database_user" from hne (.text .databaseUser),
      show key ≠ "database_password" from hne (.text .databasePassword),
      show key ≠ "database_password_file" from hne (.text .databasePasswordFile),
      show key ≠ "database_connection_string" from hne (.text .databaseConnectionString), if_false]

/-- **The branches of `from_environment_and_file`**, one for each setting. -/
theorem applyEnvironment_eq (environment : String → Option String) (config : ServerConfig) :
    config.applyEnvironment environment =
      Setting.all.foldlM (fun c s => ServerConfig.override environment s.envVar
        (fun c v => c.assign s.envVar v s) c) config := by
  simp only [Setting.all, List.foldlM_cons, List.foldlM_nil, bind_pure]
  rfl

theorem applyLine_sets (config : ServerConfig) (line : List Char) :
    Sets (lineAssignments line) config (config.applyLine line) := by
  rw [applyLine_eq]
  unfold lineAssignments
  cases keyValue line with
  | none => exact .none config
  | some kv =>
    simp only [applyKeyValue_eq]
    cases Setting.ofKey kv.1 with
    | none => exact .none config
    | some s => exact assign_sets config s.key _ s

theorem override_sets (environment : String → Option String) (config : ServerConfig)
    (s : Setting) :
    Sets ((ServerConfig.environmentValue environment s.envVar).toList.map (s, ·)) config
      (config.override environment s.envVar fun c v => c.assign s.envVar v s) := by
  unfold ServerConfig.override
  cases ServerConfig.environmentValue environment s.envVar with
  | none => exact .none config
  | some v => exact assign_sets config s.envVar v s

theorem fromFile_sets (files : String → Option String) (path : String) :
    Sets ((linesOf (files path)).flatMap lineAssignments) {}
      (ServerConfig.fromFile files path) := by
  rw [fromFile_lines]
  exact assigns_foldlM applyLine_sets (linesOf (files path)) {}

/-- What the file and then the environment give. -/
def assignments (environment : String → Option String) (lines : List (List Char)) :
    List (Setting × String) :=
  lines.flatMap lineAssignments ++ environmentAssignments environment

/-- **Loading carries out what the file gives, then what the environment gives**, starting with the
defaults. -/
theorem fromEnvironmentAndFile_sets (environment files : String → Option String) (path : String) :
    Sets (assignments environment (linesOf (files path))) {}
      (ServerConfig.fromEnvironmentAndFile environment files path) := by
  refine (fromFile_sets files path).bind fun config => ?_
  rw [applyEnvironment_eq]
  exact assigns_foldlM (fun c s => override_sets environment c s) Setting.all config

/-! ## Where the values come from -/

/-- A variable counts if it is set and not empty. -/
theorem environmentValue_eq (environment : String → Option String) (name : String) :
    ServerConfig.environmentValue environment name = (environment name).filter (· ≠ "") := by
  unfold ServerConfig.environmentValue
  cases environment name with
  | none => rfl
  | some value =>
    by_cases h : value = ""
    · simp [Option.filter, h]
    · simp [Option.filter, h]

theorem environmentValue_eq_some {environment : String → Option String} {name raw : String} :
    ServerConfig.environmentValue environment name = some raw ↔
      environment name = some raw ∧ raw ≠ "" := by
  rw [environmentValue_eq, Option.filter_eq_some_iff, decide_eq_true_eq]

theorem givenFor_environment (environment : String → Option String) (s : Setting) :
    givenFor (environmentAssignments environment) s =
      (ServerConfig.environmentValue environment s.envVar).toList := by
  unfold environmentAssignments
  rw [givenFor_flatMap _ _ Setting.nodup_all, if_pos s.mem_all]

theorem valuesFor_append (key : String) (lines lines' : List (List Char)) :
    valuesFor key (lines ++ lines') = valuesFor key lines ++ valuesFor key lines' :=
  List.filterMap_append

/-- What the lines give for a setting are the values of those with its key. -/
theorem givenFor_lines (s : Setting) (lines : List (List Char)) :
    givenFor (lines.flatMap lineAssignments) s = valuesFor s.key lines := by
  induction lines with
  | nil => rfl
  | cons line lines ih =>
    rw [List.flatMap_cons, givenFor_append, ih]
    unfold valuesFor lineAssignments
    cases hline : keyValue line with
    | none => simp [hline]
    | some kv =>
      by_cases hkey : kv.1 = s.key
      · simp [hline, hkey, s.ofKey_key, givenFor_cons]
      · have hne : ∀ s', Setting.ofKey kv.1 = some s' → s' ≠ s := by
          rintro s' hs' rfl
          exact hkey (Setting.ofKey_eq_some_iff.mp hs')
        cases hof : Setting.ofKey kv.1 with
        | none => simp [hline, hkey, hof]
        | some s' => simp [hline, hkey, hof, givenFor_cons, hne s' hof]

/-- The text that counts for a setting: that of its variable, or else of the last line with its
key. -/
def effectiveText (environment : String → Option String) (lines : List (List Char)) (s : Setting) :
    Option String :=
  ((environment s.envVar).filter (· ≠ "")).or (valuesFor s.key lines).getLast?

theorem effectiveText_eq (environment : String → Option String) (lines : List (List Char))
    (s : Setting) :
    (givenFor (assignments environment lines) s).getLast? = effectiveText environment lines s := by
  rw [assignments, givenFor_append, givenFor_environment, givenFor_lines, effectiveText,
    ← environmentValue_eq]
  cases ServerConfig.environmentValue environment s.envVar with
  | none => simp
  | some v => simp

theorem mem_assignments {environment : String → Option String} {lines : List (List Char)}
    {s : Setting} {raw : String} :
    (s, raw) ∈ assignments environment lines ↔
      raw ∈ valuesFor s.key lines ∨ environment s.envVar = some raw ∧ raw ≠ "" := by
  rw [← mem_givenFor, assignments, givenFor_append, givenFor_environment, givenFor_lines,
    List.mem_append, Option.mem_toList, environmentValue_eq_some]

section Load

variable {environment files : String → Option String} {path : String}

/-- **Loading throws iff a number is rejected**, be it overridden or not. -/
theorem load_error_iff :
    (∃ e, ServerConfig.fromEnvironmentAndFile environment files path = .error e) ↔
      ∃ (n : NumericSetting) (raw : String), n.read raw = none ∧
        (raw ∈ valuesFor (Setting.number n).key (linesOf (files path)) ∨
          environment (Setting.number n).envVar = some raw ∧ raw ≠ "") := by
  have hsets := fromEnvironmentAndFile_sets environment files path
  unfold Sets Assigns at hsets
  have hnone : assignAll Setting.read (ServerConfig.get {})
      (assignments environment (linesOf (files path))) = none ↔
      ∃ e, ServerConfig.fromEnvironmentAndFile environment files path = .error e := by
    rw [← hsets]
    cases ServerConfig.fromEnvironmentAndFile environment files path with
    | ok config => simp [Except.toOption]
    | error e => simp [Except.toOption]
  rw [← hnone, assignAll_eq_none_iff]
  constructor
  · rintro ⟨⟨s, raw⟩, hmem, hread⟩
    cases s with
    | text t => cases hread
    | number n =>
      exact ⟨n, raw, Option.map_eq_none_iff.mp hread, mem_assignments.mp hmem⟩
  · rintro ⟨n, raw, hread, hmem⟩
    exact ⟨(.number n, raw), mem_assignments.mpr hmem, Option.map_eq_none_iff.mpr hread⟩

/-- **Where a value comes from.** -/
theorem load_value {config : ServerConfig}
    (h : ServerConfig.fromEnvironmentAndFile environment files path = .ok config) (s : Setting) :
    match effectiveText environment (linesOf (files path)) s with
    | some raw => s.read raw = some (config.get s)
    | none => config.get s = ServerConfig.get {} s := by
  have hsets := fromEnvironmentAndFile_sets environment files path
  rw [h] at hsets
  obtain ⟨hnone, hsome⟩ := assignAll_eq_some hsets.symm s
  rw [effectiveText_eq] at hnone hsome
  split
  · rename_i raw hraw
    exact hsome raw hraw
  · rename_i hraw
    exact hnone hraw

/-- **Only the values given for each key matter.** -/
theorem load_congr {files' : String → Option String}
    (h : ∀ s : Setting, valuesFor s.key (linesOf (files' path)) =
      valuesFor s.key (linesOf (files path))) :
    (ServerConfig.fromEnvironmentAndFile environment files' path).toOption =
      (ServerConfig.fromEnvironmentAndFile environment files path).toOption := by
  have hcongr : ∀ s, givenFor (assignments environment (linesOf (files' path))) s =
      givenFor (assignments environment (linesOf (files path))) s := by
    intro s
    rw [assignments, assignments, givenFor_append, givenFor_append, givenFor_lines, givenFor_lines,
      h s]
  refine Option.map_injective ServerConfig.get_injective ?_
  exact (fromEnvironmentAndFile_sets environment files' path).trans
    ((assignAll_congr hcongr).trans (fromEnvironmentAndFile_sets environment files path).symm)

theorem linesFor_append (key : String) (lines lines' : List (List Char)) :
    linesFor key (lines ++ lines') = linesFor key lines ++ linesFor key lines' :=
  List.filter_append lines lines'

theorem linesFor_other {key : String} {line : List Char} (h : lineKey line ≠ some key)
    (lines : List (List Char)) : linesFor key (line :: lines) = linesFor key lines :=
  List.filter_cons_of_neg (by simpa using h)

/-- Lines with different keys may change places. -/
theorem linesFor_swap (key : String) {line line' : List Char} (h : lineKey line ≠ lineKey line')
    (lines : List (List Char)) :
    linesFor key (line :: line' :: lines) = linesFor key (line' :: line :: lines) := by
  unfold linesFor
  by_cases hkey : lineKey line = some key
  · have hkey' : lineKey line' ≠ some key := fun h' => h (hkey.trans h'.symm)
    simp [hkey, hkey']
  · simp [List.filter_cons, hkey]

/-- The values for a key are in the lines with that key. -/
theorem valuesFor_linesFor (key : String) (lines : List (List Char)) :
    valuesFor key (linesFor key lines) = valuesFor key lines := by
  unfold valuesFor linesFor
  rw [List.filterMap_filter]
  refine List.filterMap_congr fun line _ => ?_
  unfold lineKey
  cases keyValue line with
  | none => simp
  | some kv =>
    by_cases hkey : kv.1 = key
    · simp [hkey]
    · simp [hkey]

end Load

/-- **Environment, then the last line, then the default**, setting by setting. Loading throws
exactly if a text is given for a numeric setting, in the file or by a variable that is not empty,
that its parser rejects. Otherwise every setting has the value of its variable, if that is set and
not empty, or else of the last line with its key, or else its default. So a file in which every
setting has the same lines in the same order gives the same: lines with different keys may change
places, and lines without the key of a setting may be added. -/
theorem config_precedence (environment files : String → Option String) (path : String) :
    ((∃ e, ServerConfig.fromEnvironmentAndFile environment files path = .error e) ↔
      ∃ (n : NumericSetting) (raw : String), n.read raw = none ∧
        (raw ∈ valuesFor (Setting.number n).key (linesOf (files path)) ∨
          environment (Setting.number n).envVar = some raw ∧ raw ≠ "")) ∧
    (∀ config, ServerConfig.fromEnvironmentAndFile environment files path = .ok config →
      ∀ s : Setting,
        (∀ raw, environment s.envVar = some raw → raw ≠ "" → s.read raw = some (config.get s)) ∧
        ((∀ raw, environment s.envVar = some raw → raw = "") →
          match (valuesFor s.key (linesOf (files path))).getLast? with
          | some raw => s.read raw = some (config.get s)
          | none => config.get s = ServerConfig.get {} s)) ∧
    (∀ files', (∀ s : Setting,
        linesFor s.key (linesOf (files' path)) = linesFor s.key (linesOf (files path))) →
      (ServerConfig.fromEnvironmentAndFile environment files' path).toOption =
        (ServerConfig.fromEnvironmentAndFile environment files path).toOption) ∧
    (∀ files' before line line' after, lineKey line ≠ lineKey line' →
      linesOf (files path) = before ++ line :: line' :: after →
      linesOf (files' path) = before ++ line' :: line :: after →
      (ServerConfig.fromEnvironmentAndFile environment files' path).toOption =
        (ServerConfig.fromEnvironmentAndFile environment files path).toOption) ∧
    ∀ files' before line after, (∀ s : Setting, lineKey line ≠ some s.key) →
      linesOf (files path) = before ++ after →
      linesOf (files' path) = before ++ line :: after →
      (ServerConfig.fromEnvironmentAndFile environment files' path).toOption =
        (ServerConfig.fromEnvironmentAndFile environment files path).toOption := by
  have hsame : ∀ files', (∀ s : Setting,
        linesFor s.key (linesOf (files' path)) = linesFor s.key (linesOf (files path))) →
      (ServerConfig.fromEnvironmentAndFile environment files' path).toOption =
        (ServerConfig.fromEnvironmentAndFile environment files path).toOption := by
    intro files' hlines
    refine load_congr fun s => ?_
    rw [← valuesFor_linesFor, hlines s, valuesFor_linesFor]
  refine ⟨load_error_iff, fun config h s => ⟨fun raw hraw hne => ?_, fun hunset => ?_⟩, hsame, ?_,
    ?_⟩
  · have hvalue := load_value h s
    rwa [effectiveText, ← environmentValue_eq, environmentValue_eq_some.mpr ⟨hraw, hne⟩,
      Option.some_or] at hvalue
  · have hnone : (environment s.envVar).filter (· ≠ "") = none := by
      refine Option.filter_eq_none_iff.mpr fun raw hraw => ?_
      simp [hunset raw hraw]
    have hvalue := load_value h s
    rwa [effectiveText, hnone, Option.none_or] at hvalue
  · intro files' before line line' after hkeys hlines hlines'
    refine hsame files' fun s => ?_
    rw [hlines, hlines', linesFor_append, linesFor_append, linesFor_swap _ hkeys]
  · intro files' before line after hkey hlines hlines'
    refine hsame files' fun s => ?_
    rw [hlines, hlines', linesFor_append, linesFor_append, linesFor_other (hkey s)]

/-- Quotes, a comment, an unknown key, a line that is overridden, and variables; an empty variable
counts as unset. -/
example :
    (ServerConfig.fromEnvironmentAndFile
        (fun name => if name = "CC_DB_HOST" then some "db" else if name = "CC_DB_USER" then some ""
          else none)
        (fun _ => some ("port = 1\n# port = 2\nport=3 # last\n\nname\nfoo=1\nhost='a=b'\n" ++
          "database_host=x\ndatabase_user=u\n"))
        "server.conf").toOption =
      some { host := "a=b", port := 3, databaseHost := "db", databaseUser := "u" } := by
  decide +kernel

end ConsoleCalculator
