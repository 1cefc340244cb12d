import ConsoleCalculator.Base.Decimal
import ConsoleCalculator.Base.Machine

/-!
# Keyword/value connection strings

How libpq reads a connection string that is no URI: parameters `keyword=value`, with blanks between
them and around the `=`. A value in single quotes ends at the first quote that is not escaped, one
without quotes at the first blank; a backslash makes the next character of a value literal.

* `ScanState.step` reads one character, `parse` a whole text; `none` is an error.
* `Written` is a value together with the way it is written, `render` a list of parameters with one
  blank between them.

Results:
* `scan_escape`: an escaped text is read back inside quotes, whatever it is.
* **`parse_render`**: a list of parameters is read back, value by value: none ends early, swallows
  the next parameter or adds one.
-/

namespace ConsoleCalculator.Base.ConnInfo

/-- A keyword and its value. -/
abbrev Parameter := List Char × List Char

/-- Where in a connection string one is; `parameters` are those that have been read. -/
inductive ScanState where
  | between (parameters : List Parameter)
  | keyword (parameters : List Parameter) (name : List Char)
  | beforeEquals (parameters : List Parameter) (name : List Char)
  | beforeValue (parameters : List Parameter) (name : List Char)
  | bare (parameters : List Parameter) (name value : List Char)
  | bareEscape (parameters : List Parameter) (name value : List Char)
  | quoted (parameters : List Parameter) (name value : List Char)
  | quotedEscape (parameters : List Parameter) (name value : List Char)
  deriving DecidableEq, Repr

namespace ScanState

/-- One character. -/
def step : ScanState → Char → Option ScanState
  | .between ps, c =>
    if isSpace c then some (.between ps)
    else if c = '=' then some (.beforeValue ps [])
    else some (.keyword ps [c])
  | .keyword ps name, c =>
    if c = '=' then some (.beforeValue ps name)
    else if isSpace c then some (.beforeEquals ps name)
    else some (.keyword ps (name ++ [c]))
  | .beforeEquals ps name, c =>
    if isSpace c then some (.beforeEquals ps name)
    else if c = '=' then some (.beforeValue ps name)
    else none
  | .beforeValue ps name, c =>
    if isSpace c then some (.beforeValue ps name)
    else if c = '\'' then some (.quoted ps name [])
    else if c = '\\' then some (.bareEscape ps name [])
    else some (.bare ps name [c])
  | .bare ps name value, c =>
    if isSpace c then some (.between (ps ++ [(name, value)]))
    else if c = '\\' then some (.bareEscape ps name value)
    else some (.bare ps name (value ++ [c]))
  | .bareEscape ps name value, c => some (.bare ps name (value ++ [c]))
  | .quoted ps name value, c =>
    if c = '\\' then some (.quotedEscape ps name value)
    else if c = '\'' then some (.between (ps ++ [(name, value)]))
    else some (.quoted ps name (value ++ [c]))
  | .quotedEscape ps name value, c => some (.quoted ps name (value ++ [c]))

/-- The end of the text. -/
def finish : ScanState → Option (List Parameter)
  | .between ps => some ps
  | .keyword _ _ => none
  | .beforeEquals _ _ => none
  | .beforeValue ps name => some (ps ++ [(name, [])])
  | .bare ps name value => some (ps ++ [(name, value)])
  | .bareEscape ps name value => some (ps ++ [(name, value)])
  | .quoted _ _ _ => none
  | .quotedEscape _ _ _ => none

end ScanState

/-- The parameters of a connection string. -/
def parse (text : List Char) : Option (List Parameter) :=
  (runSteps ScanState.step (.between []) text).bind ScanState.finish

/-! ## Writing -/

/-- A backslash before every quote and backslash. -/
def escape (value : List Char) : List Char :=
  value.flatMap fun c => if c = '\\' ∨ c = '\'' then ['\\', c] else [c]

/-- A value, and how it is written. -/
inductive Written where
  | quoted (value : List Char)
  | bare (value : List Char)

namespace Written

def value : Written → List Char
  | .quoted v => v
  | .bare v => v

def text : Written → List Char
  | .quoted v => '\'' :: (escape v ++ ['\''])
  | .bare v => v

/-- A value that is not quoted needs to be a word without quotes and backslashes. -/
def Readable : Written → Prop
  | .quoted _ => True
  | .bare v => v ≠ [] ∧ ∀ c ∈ v, isSpace c = false ∧ c ≠ '\'' ∧ c ≠ '\\'

end Written

/-- A keyword is a word without `=`. -/
def IsKeyword (name : List Char) : Prop := name ≠ [] ∧ ∀ c ∈ name, isSpace c = false ∧ c ≠ '='

/-- `keyword=value`. -/
def writeParameter (p : List Char × Written) : List Char := p.1 ++ '=' :: p.2.text

/-- Parameters with one blank between them. -/
def render : List (List Char × Written) → List Char
  | [] => []
  | p :: ps => writeParameter p ++ ps.flatMap fun q => ' ' :: writeParameter q

/-! ## Reading -/

theorem scan_keyword (ps : List Parameter) (name : List Char) (rest : List Char) :
    ∀ word : List Char, (∀ c ∈ word, isSpace c = false ∧ c ≠ '=') →
      runSteps ScanState.step (.keyword ps name) (word ++ rest) =
        runSteps ScanState.step (.keyword ps (name ++ word)) rest := by
  intro word
  induction word generalizing name with
  | nil => simp
  | cons c word ih =>
    intro h
    obtain ⟨hspace, hequals⟩ := h c List.mem_cons_self
    rw [List.cons_append, runSteps]
    simp only [ScanState.step, hequals, hspace, if_false, Bool.false_eq_true, Option.bind_some]
    rw [ih (name ++ [c]) fun c' hc' => h c' (List.mem_cons_of_mem c hc'), List.append_assoc,
      List.singleton_append]

theorem scan_bare (ps : List Parameter) (name : List Char) :
    ∀ (word value : List Char), (∀ c ∈ word, isSpace c = false ∧ c ≠ '\'' ∧ c ≠ '\\') →
      runSteps ScanState.step (.bare ps name value) word = some (.bare ps name (value ++ word))
  | [], value, _ => by
    rw [List.append_nil]
    rfl
  | c :: word, value, h => by
    obtain ⟨hspace, -, hescape⟩ := h c List.mem_cons_self
    rw [runSteps]
    simp only [ScanState.step, hspace, hescape, if_false, Bool.false_eq_true, Option.bind_some]
    rw [scan_bare ps name word (value ++ [c]) fun c' hc' => h c' (List.mem_cons_of_mem c hc'),
      List.append_assoc, List.singleton_append]

/-- **An escaped text is read back**, and the value goes on. -/
theorem scan_escape (ps : List Parameter) (name rest : List Char) :
    ∀ (v value : List Char), runSteps ScanState.step (.quoted ps name value) (escape v ++ rest) =
      runSteps ScanState.step (.quoted ps name (value ++ v)) rest
  | [], value => by
    rw [List.append_nil]
    rfl
  | c :: v, value => by
    have ih := scan_escape ps name rest v (value ++ [c])
    rw [List.append_assoc, List.singleton_append] at ih
    by_cases hc : c = '\\' ∨ c = '\''
    · have hescape : escape (c :: v) = '\\' :: c :: escape v := by simp [escape, hc]
      rw [hescape, List.cons_append, List.cons_append]
      exact ih
    · have hescape : escape (c :: v) = c :: escape v := by simp [escape, hc]
      rw [not_or] at hc
      rw [hescape, List.cons_append, runSteps]
      simp only [ScanState.step, hc.1, hc.2, if_false, Option.bind_some]
      exact ih

/-- The parameters are complete, and another one may follow after a blank. -/
def Complete (ps : List Parameter) (s : ScanState) : Prop :=
  s.finish = some ps ∧ s.step ' ' = some (.between ps)

/-- A parameter is read, whichever were read before it. -/
theorem scan_parameter (ps : List Parameter) {p : List Char × Written} (hname : IsKeyword p.1)
    (hvalue : p.2.Readable) :
    ∃ s, runSteps ScanState.step (.between ps) (writeParameter p) = some s ∧
      Complete (ps ++ [(p.1, p.2.value)]) s := by
  obtain ⟨name, written⟩ := p
  obtain ⟨hne, hword⟩ := hname
  obtain ⟨c, word, rfl⟩ := List.exists_cons_of_ne_nil hne
  obtain ⟨hspace, hequals⟩ := hword c List.mem_cons_self
  have hkeyword : runSteps ScanState.step (.between ps) (writeParameter (c :: word, written)) =
      runSteps ScanState.step (.beforeValue ps (c :: word)) written.text := by
    rw [writeParameter, List.cons_append, runSteps]
    simp only [ScanState.step, hspace, hequals, if_false, Bool.false_eq_true, Option.bind_some]
    rw [scan_keyword ps [c] _ word fun c' hc' => hword c' (List.mem_cons_of_mem c hc'), runSteps]
    rfl
  rw [hkeyword]
  cases written with
  | quoted v =>
    refine ⟨.between (ps ++ [(c :: word, v)]), ?_, rfl, rfl⟩
    rw [Written.text, runSteps]
    exact scan_escape ps (c :: word) ['\''] v []
  | bare v =>
    obtain ⟨hv, hbare⟩ := hvalue
    obtain ⟨d, rest, rfl⟩ := List.exists_cons_of_ne_nil hv
    obtain ⟨hdspace, hdquote, hdescape⟩ := hbare d List.mem_cons_self
    refine ⟨.bare ps (c :: word) (d :: rest), ?_, rfl, rfl⟩
    rw [Written.text, runSteps]
    simp only [ScanState.step, hdspace, hdquote, hdescape, if_false, Bool.false_eq_true,
      Option.bind_some]
    exact scan_bare ps (c :: word) rest [d] fun c' hc' => hbare c' (List.mem_cons_of_mem d hc')

/-- Further parameters, each after a blank. -/
theorem scan_parameters : ∀ (qs : List (List Char × Written)) {ps : List Parameter} {s : ScanState},
    (∀ q ∈ qs, IsKeyword q.1 ∧ q.2.Readable) → Complete ps s →
    ∃ s', runSteps ScanState.step s (qs.flatMap fun q => ' ' :: writeParameter q) = some s' ∧
      Complete (ps ++ qs.map fun q => (q.1, q.2.value)) s'
  | [], ps, s, _, hs => ⟨s, rfl, by simpa using hs⟩
  | q :: qs, ps, s, hqs, hs => by
    obtain ⟨hname, hvalue⟩ := hqs q List.mem_cons_self
    obtain ⟨t, ht, hcomplete⟩ := scan_parameter ps hname hvalue
    obtain ⟨s', hs', hcomplete'⟩ :=
      scan_parameters qs (fun q' hq' => hqs q' (List.mem_cons_of_mem q hq')) hcomplete
    refine ⟨s', ?_, by simpa using hcomplete'⟩
    rw [List.flatMap_cons, List.cons_append, runSteps, hs.2, Option.bind_some, runSteps_append, ht,
      Option.bind_some, hs']

/-- **A list of parameters is read back.** -/
theorem parse_render {ps : List (List Char × Written)}
    (h : ∀ p ∈ ps, IsKeyword p.1 ∧ p.2.Readable) :
    parse (render ps) = some (ps.map fun p => (p.1, p.2.value)) := by
  cases ps with
  | nil => rfl
  | cons p ps =>
    obtain ⟨hname, hvalue⟩ := h p List.mem_cons_self
    obtain ⟨s, hs, hcomplete⟩ := scan_parameter [] hname hvalue
    obtain ⟨s', hs', hcomplete'⟩ :=
      scan_parameters ps (fun q hq => h q (List.mem_cons_of_mem p hq)) hcomplete
    rw [parse, render, runSteps_append, hs, Option.bind_some, hs', Option.bind_some, hcomplete'.1]
    rfl

end ConsoleCalculator.Base.ConnInfo
