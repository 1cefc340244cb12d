import ConsoleCalculator.Base.ConnInfo
import ConsoleCalculator.Server.ServerConfig

/-!
# The connection string

Model of `ServerConfig::database_connection_string` (`server/src/server-config.cpp`), which writes
the database settings into one line for libpq, and of what libpq reads there (`Base.ConnInfo`).

Results:
* `libpqEscapeValue_toList`: `libpq_escape_value` writes a value in quotes, with its quotes and
  backslashes escaped.
* **`connection_string_parsed`**: libpq reads the configured values and nothing else.
-/

namespace ConsoleCalculator

open Base

/-- `read_text_file`. -/
def readTextFile (files : String → Option String) (path : String) : String :=
  match files path with
  | none => ""
  | some text => String.ofList (trim text.toList)

/-- `libpq_escape_value`. -/
def libpqEscapeValue (value : String) : String :=
  let escaped := value.toList.foldl
    (fun escaped ch =>
      (if ch = '\\' ∨ ch = '\'' then escaped ++ ['\\'] else escaped) ++ [ch]) ['\'']
  String.ofList (escaped ++ ['\''])

namespace ServerConfig

/-- `ServerConfig::database_connection_string`. -/
def databaseConnectionString (files : String → Option String) (config : ServerConfig) : String :=
  if config.explicitDatabaseConnectionString ≠ "" then config.explicitDatabaseConnectionString
  else
    let password :=
      if config.databasePassword = "" ∧ config.databasePasswordFile ≠ "" then
        readTextFile files config.databasePasswordFile
      else config.databasePassword
    let output := "host=" ++ libpqEscapeValue config.databaseHost ++
      " port=" ++ config.databasePort.toNat.repr ++
      " dbname=" ++ libpqEscapeValue config.databaseName ++
      " user=" ++ libpqEscapeValue config.databaseUser
    if password ≠ "" then output ++ " password=" ++ libpqEscapeValue password else output

/-- The password that is used: the configured one, or else what the password file says. -/
def effectivePassword (files : String → Option String) (config : ServerConfig) : String :=
  if config.databasePassword ≠ "" then config.databasePassword
  else if config.databasePasswordFile = "" then ""
  else readTextFile files config.databasePasswordFile

/-- What the connection string is to say. -/
def connectionParameters (files : String → Option String) (config : ServerConfig) :
    List (String × String) :=
  [("host", config.databaseHost), ("port", config.databasePort.toNat.repr),
    ("dbname", config.databaseName), ("user", config.databaseUser)] ++
  if config.effectivePassword files = "" then [] else [("password", config.effectivePassword files)]

end ServerConfig

/-! ## How the values are written -/

theorem libpqEscapeValue_toList (value : String) :
    (libpqEscapeValue value).toList = (ConnInfo.Written.quoted value.toList).text := by
  have hloop : ∀ (cs acc : List Char), cs.foldl
      (fun escaped ch =>
        (if ch = '\\' ∨ ch = '\'' then escaped ++ ['\\'] else escaped) ++ [ch]) acc =
      acc ++ ConnInfo.escape cs := by
    intro cs
    induction cs with
    | nil => simp [ConnInfo.escape]
    | cons c cs ih =>
      intro acc
      rw [List.foldl_cons, ih]
      by_cases hc : c = '\\' ∨ c = '\''
      · simp [ConnInfo.escape, hc]
      · simp [ConnInfo.escape, hc]
  rw [libpqEscapeValue, String.toList_ofList, hloop]
  simp [ConnInfo.Written.text]

theorem nulFree_libpqEscapeValue {value : String} (h : NulFree value) :
    NulFree (libpqEscapeValue value) := by
  unfold NulFree
  rw [libpqEscapeValue_toList]
  have hescape : '\x00' ∉ ConnInfo.escape value.toList := by
    intro hmem
    obtain ⟨c, hc, hin⟩ := List.mem_flatMap.mp hmem
    have hne : '\x00' ≠ c := fun he => h (he ▸ hc)
    split at hin
    · simp [hne] at hin
    · simp [hne] at hin
  simp [ConnInfo.Written.text, hescape]

/-- How the parameters are written: the port as it is, the rest in quotes. -/
def writtenParameters (files : String → Option String) (config : ServerConfig) :
    List (List Char × ConnInfo.Written) :=
  [("host".toList, .quoted config.databaseHost.toList),
    ("port".toList, .bare config.databasePort.toNat.repr.toList),
    ("dbname".toList, .quoted config.databaseName.toList),
    ("user".toList, .quoted config.databaseUser.toList)] ++
  if config.effectivePassword files = "" then []
  else [("password".toList, .quoted (config.effectivePassword files).toList)]

theorem writtenParameters_values (files : String → Option String) (config : ServerConfig) :
    (writtenParameters files config).map (fun p => (p.1, p.2.value)) =
      (config.connectionParameters files).map fun p => (p.1.toList, p.2.toList) := by
  unfold writtenParameters ServerConfig.connectionParameters
  split <;> rfl

theorem writtenParameters_readable (files : String → Option String) (config : ServerConfig) :
    ∀ p ∈ writtenParameters files config, ConnInfo.IsKeyword p.1 ∧ p.2.Readable := by
  have hport : (ConnInfo.Written.bare config.databasePort.toNat.repr.toList).Readable := by
    obtain ⟨c, cs, hc, -⟩ := repr_cons config.databasePort.toNat
    refine ⟨by rw [hc]; exact List.cons_ne_nil c cs, fun d hd => ?_⟩
    have hdigit := isDigit_of_mem_repr hd
    refine ⟨(isDigit_spec hdigit).1, ?_, ?_⟩
    · rintro rfl
      exact absurd hdigit (by decide)
    · rintro rfl
      exact absurd hdigit (by decide)
  have hkeyword : ∀ name ∈ ["host", "port", "dbname", "user", "password"],
      ConnInfo.IsKeyword name.toList := by
    simp [ConnInfo.IsKeyword, isSpace]
  intro p hp
  rcases List.mem_append.mp hp with hp | hp
  · simp only [List.mem_cons, List.not_mem_nil, or_false] at hp
    rcases hp with rfl | rfl | rfl | rfl
    · exact ⟨hkeyword _ (by simp), trivial⟩
    · exact ⟨hkeyword _ (by simp), hport⟩
    · exact ⟨hkeyword _ (by simp), trivial⟩
    · exact ⟨hkeyword _ (by simp), trivial⟩
  · split at hp
    · cases hp
    · rw [List.mem_singleton.mp hp]
      exact ⟨hkeyword _ (by simp), trivial⟩

theorem password_eq (files : String → Option String) (config : ServerConfig) :
    (if config.databasePassword = "" ∧ config.databasePasswordFile ≠ "" then
      readTextFile files config.databasePasswordFile
    else config.databasePassword) = config.effectivePassword files := by
  unfold ServerConfig.effectivePassword
  by_cases hpassword : config.databasePassword = ""
  · by_cases hfile : config.databasePasswordFile = ""
    · simp [hpassword, hfile]
    · simp [hpassword, hfile]
  · simp [hpassword]

/-- The connection string is a list of parameters. -/
theorem connectionString_toList (files : String → Option String) {config : ServerConfig}
    (hexplicit : config.explicitDatabaseConnectionString = "") :
    (config.databaseConnectionString files).toList =
      ConnInfo.render (writtenParameters files config) := by
  unfold ServerConfig.databaseConnectionString writtenParameters
  rw [if_neg (not_not.mpr hexplicit)]
  simp only [password_eq]
  by_cases hpassword : config.effectivePassword files = ""
  · simp [hpassword, libpqEscapeValue_toList, ConnInfo.render, ConnInfo.writeParameter,
      ConnInfo.Written.text]
  · simp [hpassword, libpqEscapeValue_toList, ConnInfo.render, ConnInfo.writeParameter,
      ConnInfo.Written.text]

theorem nulFree_connectionString {files : String → Option String} {config : ServerConfig}
    (hexplicit : config.explicitDatabaseConnectionString = "")
    (hhost : NulFree config.databaseHost) (hname : NulFree config.databaseName)
    (huser : NulFree config.databaseUser)
    (hpassword : NulFree (config.effectivePassword files)) :
    NulFree (config.databaseConnectionString files) := by
  have hhost := nulFree_libpqEscapeValue hhost
  have hname := nulFree_libpqEscapeValue hname
  have huser := nulFree_libpqEscapeValue huser
  have hpassword := nulFree_libpqEscapeValue hpassword
  have hport := nulFree_repr config.databasePort.toNat
  unfold ServerConfig.databaseConnectionString
  rw [if_neg (not_not.mpr hexplicit)]
  simp only [password_eq]
  split
  · simp only [nulFree_append_iff, hhost, hname, huser, hpassword, hport, and_true]
    decide
  · simp only [nulFree_append_iff, hhost, hname, huser, hport, and_true]
    decide

/-- **libpq reads the configured values and nothing else.** Without an explicit connection string,
what libpq parses are host, port, database name and user as they are configured, and the password
that is used if it is not empty, whatever characters other than NUL are in them. -/
theorem connection_string_parsed (files : String → Option String) (config : ServerConfig)
    (hexplicit : config.explicitDatabaseConnectionString = "")
    (hhost : NulFree config.databaseHost) (hname : NulFree config.databaseName)
    (huser : NulFree config.databaseUser)
    (hpassword : NulFree (config.effectivePassword files)) :
    ConnInfo.parse (cStr (config.databaseConnectionString files)).toList =
      some ((config.connectionParameters files).map fun p => (p.1.toList, p.2.toList)) := by
  rw [cStr_of_nulFree (nulFree_connectionString hexplicit hhost hname huser hpassword),
    connectionString_toList files hexplicit,
    ConnInfo.parse_render (writtenParameters_readable files config), writtenParameters_values]

/-- A host that looks like another parameter, a name that ends with a backslash, and a password
with quotes and blanks out of a file. -/
def trickyConfig : ServerConfig :=
  { databaseHost := "h' port='1", databaseName := "d\\", databaseUser := ""
    databasePasswordFile := "pw" }

theorem connection_string_parsed_tricky :
    ConnInfo.parse (cStr (trickyConfig.databaseConnectionString
        fun path => if path = "pw" then some " p'w=\\ x\n" else none)).toList =
      some ([("host", "h' port='1"), ("port", "5432"), ("dbname", "d\\"), ("user", ""),
        ("password", "p'w=\\ x")].map fun p => (p.1.toList, p.2.toList)) := by
  have hpassword : trickyConfig.effectivePassword
      (fun path => if path = "pw" then some " p'w=\\ x\n" else none) = "p'w=\\ x" := by
    decide +kernel
  rw [connection_string_parsed _ trickyConfig rfl (by decide) (by decide) (by decide)
    (by rw [hpassword]; decide)]
  unfold ServerConfig.connectionParameters
  rw [hpassword]
  rfl

end ConsoleCalculator
