import ConsoleCalculator.Server.ServerConfig

/-!
# Quoted values and numbers in the configuration

What becomes of a value that is written in the configuration file, or in a variable
(`server/src/server-config.cpp`).

* `from_file` removes everything from the first `#` before it looks for quotes, so a quoted text is
  kept if it has no `#` (`unquote_quoted`), whatever else it has: blanks, `=`, quotes.
* `parse_uint16` and `apply_key_value` leave it to `std::stoul` and `std::stoull` to reject numbers.
  These take a minus sign and negate modulo `2^64`, so a negative literal is compared with the range
  of its setting after it has wrapped (`read_literal`).

Results:
* **`quoted_value_iff`**: a quoted text comes out as it was written exactly if it has no `#`;
  `quoted_hash_cut` is a password that has one.
* **`literal_exact_iff`**: a literal for a port or for the message size is taken for the number it
  denotes, or rejected, exactly if it does not wrap into the range (`Wraps`);
  `negative_literals_accepted` has one for each.
-/

namespace ConsoleCalculator

open Base

/-! ## Quoted texts -/

/-- The blanks of a line with a key and a value. -/
structure Padding where
  beforeKey : List Char
  afterKey : List Char
  beforeValue : List Char
  afterValue : List Char
  blank : ∀ c ∈ beforeKey ++ afterKey ++ beforeValue ++ afterValue, c = ' ' ∨ c = '\t'

/-- `key="v"`, with blanks around each part. -/
def quotedLine (p : Padding) (key : String) (quote : Char) (v : String) : List Char :=
  (p.beforeKey ++ key.toList ++ p.afterKey) ++
    '=' :: (p.beforeValue ++ quote :: (v.toList ++ quote :: p.afterValue))

namespace Padding

variable (p : Padding)

theorem isBlank_of_mem {c : Char}
    (h : c ∈ p.beforeKey ++ p.afterKey ++ p.beforeValue ++ p.afterValue) : isBlank c = true := by
  rcases p.blank c h with rfl | rfl <;> rfl

theorem notMem {c : Char} (hc : isBlank c = false) :
    c ∉ p.beforeKey ++ p.afterKey ++ p.beforeValue ++ p.afterValue :=
  fun h => Bool.false_ne_true (hc.symm.trans (p.isBlank_of_mem h))

end Padding

theorem trim_blank_append {a : List Char} (ha : ∀ c ∈ a, isBlank c = true) (b : List Char) :
    trim (a ++ b) = trim b := by
  rw [trim, List.dropWhile_append_of_pos ha, trim]

theorem mem_of_mem_unquote {c : Char} {value : List Char} (h : c ∈ unquote value) : c ∈ value := by
  simp only [unquote] at h
  split at h
  · exact mem_of_mem_trim (List.mem_of_mem_tail (List.mem_of_mem_dropLast h))
  · exact mem_of_mem_trim h

/-- **A quoted text with blanks around it is unquoted**, whatever it is. -/
theorem unquote_quoted {quote : Char} (hquote : quote = '"' ∨ quote = '\'')
    {before after : List Char}
    (hbefore : ∀ c ∈ before, isBlank c = true) (hafter : ∀ c ∈ after, isBlank c = true)
    (v : List Char) : unquote (before ++ quote :: (v ++ quote :: after)) = v := by
  have hq : isBlank quote = false := by rcases hquote with rfl | rfl <;> rfl
  have htrim : trim (before ++ quote :: (v ++ quote :: after)) = quote :: (v ++ [quote]) := by
    rw [trim_around hq, rdropWhile_append_cons hq, List.dropWhile_eq_nil_iff.mpr hbefore,
      List.rdropWhile_eq_nil_iff.mpr hafter, List.nil_append]
  have henclosed : enclosedIn quote (quote :: (v ++ [quote])) = true := by
    rw [enclosedIn, ← List.cons_append, List.getLast?_concat]
    simp
  simp only [unquote, htrim]
  rcases hquote with rfl | rfl
  · simp [henclosed]
  · simp [henclosed]

/-- The key of a setting has nothing in it that `from_file` takes for something else. -/
theorem Setting.key_plain (s : Setting) :
    '=' ∉ s.key.toList ∧ '#' ∉ s.key.toList ∧ trim s.key.toList = s.key.toList := by
  rcases s with (_ | _ | _ | _ | _ | _ | _ | _) | (_ | _ | _ | _) <;> decide

/-- The key and the value of a quoted line: its value ends at the first `#`. -/
theorem keyValue_quotedLine (p : Padding) (s : Setting) {quote : Char}
    (hquote : quote = '"' ∨ quote = '\'') (v : String) :
    ∃ value, keyValue (quotedLine p s.key quote v) = some (s.key, value) ∧
      (value = v ↔ '#' ∉ v.toList) := by
  obtain ⟨hequals, hhash, htrim⟩ := s.key_plain
  have hblank : ∀ c, _ → isBlank c = true := fun c => p.isBlank_of_mem
  have hnotEquals := p.notMem (c := '=') rfl
  have hnotHash := p.notMem (c := '#') rfl
  simp only [List.mem_append, not_or] at hblank hnotEquals hnotHash
  obtain ⟨⟨⟨hb, ha⟩, hbv⟩, hav⟩ := hnotHash
  have hquoteHash : quote ≠ '#' := by rcases hquote with rfl | rfl <;> decide
  have hkey : trim (p.beforeKey ++ s.key.toList ++ p.afterKey) = s.key.toList := by
    rw [trim_append_blank fun c hc => hblank c (.inl (.inl (.inr hc))),
      trim_blank_append fun c hc => hblank c (.inl (.inl (.inl hc))), htrim]
  have hcut : (quotedLine p s.key quote v).takeWhile (· != '#') =
      (p.beforeKey ++ s.key.toList ++ p.afterKey) ++ '=' ::
        (p.beforeValue ++ quote :: (v.toList ++ quote :: p.afterValue)).takeWhile (· != '#') := by
    rw [quotedLine, List.takeWhile_append_of_pos (bne_of_notMem (by simp [hb, hhash, ha])),
      List.takeWhile_cons_of_pos (by decide)]
  have hvalue := keyValue_of_mem hcut (by simp [hnotEquals, hequals])
  rw [hkey, String.ofList_toList] at hvalue
  refine ⟨_, hvalue, fun h hmem => ?_, fun hmem => ?_⟩
  · -- nothing that is left has a `#`
    rw [← h, String.toList_ofList] at hmem
    have hne := List.mem_takeWhile_imp (mem_of_mem_unquote hmem)
    exact absurd hne (by simp)
  · have hall : ∀ c ∈ p.beforeValue ++ quote :: (v.toList ++ quote :: p.afterValue),
        (c != '#') = true := bne_of_notMem (by simp [hbv, hmem, hav, Ne.symm hquoteHash])
    rw [List.takeWhile_eq_self_iff.mpr hall, unquote_quoted hquote
      (fun c hc => hblank c (.inl (.inr hc))) (fun c hc => hblank c (.inr hc)),
      String.ofList_toList]

/-! ## Loading the file alone -/

theorem fromFile_eq (files : String → Option String) (path : String) :
    ServerConfig.fromFile files path =
      ServerConfig.fromEnvironmentAndFile (fun _ => none) files path := by
  unfold ServerConfig.fromEnvironmentAndFile
  cases ServerConfig.fromFile files path <;> rfl

theorem mem_valuesFor {key raw : String} {lines : List (List Char)} :
    raw ∈ valuesFor key lines ↔ ∃ line ∈ lines, keyValue line = some (key, raw) := by
  unfold valuesFor
  rw [List.mem_filterMap]
  refine exists_congr fun line => and_congr_right fun _ => ?_
  cases keyValue line with
  | none => simp
  | some kv =>
    obtain ⟨key', raw'⟩ := kv
    by_cases h : key' = key
    · simp [h]
    · simp [h]

/-- The last line with a key gives its value. -/
theorem getLast?_valuesFor {key raw : String} {line : List Char}
    (hline : keyValue line = some (key, raw)) {after : List (List Char)}
    (hlast : ∀ line ∈ after, lineKey line ≠ some key) (before : List (List Char)) :
    (valuesFor key (before ++ line :: after)).getLast? = some raw := by
  have hafter : valuesFor key after = [] := by
    refine List.eq_nil_iff_forall_not_mem.mpr fun raw' hraw' => ?_
    obtain ⟨line', hmem, hline'⟩ := mem_valuesFor.mp hraw'
    exact hlast line' hmem (by rw [lineKey, hline']; rfl)
  have hone : valuesFor key [line] = [raw] := by
    simp [valuesFor, hline]
  rw [List.append_cons, valuesFor_append, valuesFor_append, hone, hafter, List.append_nil,
    List.getLast?_concat]

theorem Setting.key_injective {s s' : Setting} (h : s.key = s'.key) : s = s' := by
  have hkey := s.ofKey_key
  rw [h, s'.ofKey_key] at hkey
  exact (Option.some.inj hkey).symm

/-- **Quotes keep a text without `#`.** A file has the line `key="v"` or `key='v'` for a text
setting, with blanks around the key, the `=` and the quoted text; no later line has the key, and no
number in the other lines is rejected. Then the file is loaded, and the setting is `v` exactly if
there is no `#` in `v`: what follows a `#` is taken for a comment, also inside the quotes. -/
theorem quoted_value_iff (t : TextSetting) (p : Padding) (quote : Char)
    (hquote : quote = '"' ∨ quote = '\'') (v : String) (files : String → Option String)
    (path : String) (before after : List (List Char))
    (hfile : linesOf (files path) = before ++ quotedLine p (Setting.text t).key quote v :: after)
    (hlast : ∀ line ∈ after, lineKey line ≠ some (Setting.text t).key)
    (hothers : ∀ line ∈ before ++ after, ∀ (n : NumericSetting) (raw : String),
      keyValue line = some ((Setting.number n).key, raw) → n.read raw ≠ none) :
    ∃ config, ServerConfig.fromFile files path = .ok config ∧
      (config.get (.text t) = .text v ↔ '#' ∉ v.toList) := by
  obtain ⟨value, hvalue, hiff⟩ := keyValue_quotedLine p (.text t) hquote v
  rw [fromFile_eq]
  cases hload : ServerConfig.fromEnvironmentAndFile (fun _ => none) files path with
  | error e =>
    -- what is rejected is a number, so it is in another line
    obtain ⟨n, raw, hread, hgiven | hgiven⟩ := load_error_iff.mp ⟨e, hload⟩
    · rw [hfile] at hgiven
      obtain ⟨line, hmem, hline⟩ := mem_valuesFor.mp hgiven
      have hline' : line ∈ before ++ after := by
        rcases List.mem_append.mp hmem with hin | hin
        · exact List.mem_append_left after hin
        · rcases List.mem_cons.mp hin with rfl | hin
          · have hkeys := congrArg Prod.fst (Option.some.inj (hvalue.symm.trans hline))
            cases Setting.key_injective hkeys
          · exact List.mem_append_right before hin
      exact absurd hread (hothers line hline' n raw hline)
    · cases hgiven.1
  | ok config =>
    refine ⟨config, rfl, ?_⟩
    have hsetting := load_value hload (.text t)
    rw [hfile, effectiveText, getLast?_valuesFor hvalue hlast before] at hsetting
    have hget : config.get (.text t) = .text value := (Option.some.inj hsetting).symm
    rw [hget, ← hiff]
    exact ⟨fun h => SettingValue.text.inj h, fun h => congrArg _ h⟩

/-- A file with a quoted value full of special characters. -/
def quotedSample : String := "port=1\n \thost\t = \" a='b' \" \n# end\n"

theorem quoted_value_iff_sample :
    ∃ config, ServerConfig.fromFile (fun _ => some quotedSample) "server.conf" = .ok config ∧
      config.get (.text .host) = .text " a='b' " := by
  have hport : keyValue "port=1".toList = some ("port", "1") := by decide +kernel
  have hcomment : keyValue "# end".toList = none := by decide +kernel
  have hone : ∀ n : NumericSetting, n.read "1" ≠ none := by
    intro n
    cases n <;> decide +kernel
  obtain ⟨config, hload, hiff⟩ := quoted_value_iff .host
    ⟨[' ', '\t'], ['\t', ' '], [' '], [' '], by simp⟩ '"' (Or.inl rfl) " a='b' "
    (fun _ => some quotedSample) "server.conf" ["port=1".toList]
    ["# end".toList, []] (by decide +kernel) (by decide +kernel) (by
      intro line hline n raw hkey
      rcases List.mem_cons.mp hline with rfl | hline
      · have hraw : "1" = raw := congrArg Prod.snd (Option.some.inj (hport.symm.trans hkey))
        exact hraw ▸ hone n
      · rcases List.mem_cons.mp hline with rfl | hline
        · rw [hcomment] at hkey
          cases hkey
        · rw [List.mem_singleton.mp hline] at hkey
          cases hkey)
  exact ⟨config, hload, hiff.mpr (by decide)⟩

/-- A password with a `#` in it loses what follows, and the quote it begins with stays. -/
theorem quoted_hash_cut :
    (ServerConfig.fromFile (fun _ => some "database_password=\"pa#ss\"\n") "server.conf").toOption =
      some { databasePassword := "\"pa" } := by
  decide +kernel

/-! ## Numbers -/

/-- The largest value of an unsigned setting. -/
def NumericSetting.max : NumericSetting → ℤ
  | .maxMessageSize => 2 ^ 64 - 1
  | _ => 65535

/-- The number is negative, and in the range of the setting once `2^64` is added. -/
def NumericSetting.Wraps (n : NumericSetting) (v : ℤ) : Prop :=
  v < 0 ∧ 0 < v + 2 ^ 64 ∧ v + 2 ^ 64 ≤ n.max

theorem NumericSetting.max_lt (n : NumericSetting) : n.max < 2 ^ 64 := by
  cases n <;> decide

/-- The unsigned settings take what `std::stoul` makes of a text if it is in their range. -/
theorem read_unsigned {n : NumericSetting} (hn : n ≠ .workerThreads) (raw : String) :
    n.read raw = ((stoul raw).map fun m => (m.toNat : ℤ)).filter (· ≤ n.max) := by
  have hport : ((stoul raw).filter (· ≤ 65535)).map (fun m => (m.toNat : ℤ)) =
      ((stoul raw).map fun m => (m.toNat : ℤ)).filter (· ≤ 65535) := by
    cases stoul raw with
    | none => rfl
    | some m =>
      have hle : m ≤ 65535 ↔ (m.toNat : ℤ) ≤ 65535 := by
        rw [UInt64.le_iff_toNat_le]
        exact Int.ofNat_le.symm
      by_cases h : m ≤ 65535
      · simp [Option.filter, h, hle.mp h]
      · simp [Option.filter, h, mt hle.mpr h]
  cases n with
  | port => exact hport
  | databasePort => exact hport
  | workerThreads => exact absurd rfl hn
  | maxMessageSize =>
    show (stoul raw).map _ = _
    cases stoul raw with
    | none => rfl
    | some m =>
      have hlt := m.toNat_lt
      have hle : (m.toNat : ℤ) ≤ NumericSetting.max .maxMessageSize := by
        show (m.toNat : ℤ) ≤ 2 ^ 64 - 1
        omega
      simp [Option.filter, hle]

/-- What a literal is taken for: its value modulo `2^64`, if that is in range. -/
theorem read_literal {n : NumericSetting} (hn : n ≠ .workerThreads) (l : DecimalLiteral) :
    n.read l.text =
      if l.value.natAbs < 2 ^ 64 ∧ l.value % 2 ^ 64 ≤ n.max then some (l.value % 2 ^ 64)
      else none := by
  rw [read_unsigned hn, l.stoul_text, ← l.natAbs_value]
  by_cases hmag : l.value.natAbs < 2 ^ 64
  · rw [if_pos hmag]
    by_cases hle : l.value % 2 ^ 64 ≤ n.max
    · rw [if_pos ⟨hmag, hle⟩, Option.filter_some_pos (by simpa using hle)]
    · rw [if_neg fun h => hle h.2, Option.filter_some_neg (by simpa using hle)]
  · rw [if_neg hmag, if_neg fun h => hmag h.1, Option.filter_none]

section Literals

variable {n : NumericSetting} (hn : n ≠ .workerThreads) (l : DecimalLiteral)

include hn

theorem read_inRange (h : 0 ≤ l.value ∧ l.value ≤ n.max) : n.read l.text = some l.value := by
  have hmax := n.max_lt
  have hmod : l.value % 2 ^ 64 = l.value := by omega
  rw [read_literal hn, hmod, if_pos ⟨by omega, h.2⟩]

theorem read_wraps (h : n.Wraps l.value) : n.read l.text = some (l.value + 2 ^ 64) := by
  obtain ⟨hneg, hpos, hle⟩ := h
  have hmax := n.max_lt
  have hmod : l.value % 2 ^ 64 = l.value + 2 ^ 64 := by omega
  rw [read_literal hn, hmod, if_pos ⟨by omega, hle⟩]

theorem read_rejected (h : ¬ (0 ≤ l.value ∧ l.value ≤ n.max)) (hwraps : ¬ n.Wraps l.value) :
    n.read l.text = none := by
  rw [read_literal hn, if_neg]
  rintro ⟨hmag, hle⟩
  unfold NumericSetting.Wraps at hwraps
  have hmax := n.max_lt
  omega

end Literals

/-- **Numbers are exact unless they wrap.** A literal is given for a port or for the message size,
in the file or by a variable, and nothing else that is given is rejected. If the number is in range
and the literal counts, the setting is that number, and if it is out of range loading throws: this
holds exactly for the literals that do not wrap. A negative literal that comes into the range once
`2^64` is added is taken for that sum. -/
theorem literal_exact_iff (n : NumericSetting) (hn : n ≠ .workerThreads) (l : DecimalLiteral)
    (environment files : String → Option String) (path : String)
    (hgiven : l.text ∈ valuesFor (Setting.number n).key (linesOf (files path)) ∨
      environment (Setting.number n).envVar = some l.text ∧ l.text ≠ "")
    (hothers : ∀ (m : NumericSetting) (raw : String),
      raw ∈ valuesFor (Setting.number m).key (linesOf (files path)) ∨
        environment (Setting.number m).envVar = some raw ∧ raw ≠ "" →
      ¬ (m = n ∧ raw = l.text) → m.read raw ≠ none) :
    ((0 ≤ l.value ∧ l.value ≤ n.max →
        effectiveText environment (linesOf (files path)) (.number n) = some l.text →
        ∃ config, ServerConfig.fromEnvironmentAndFile environment files path = .ok config ∧
          config.get (.number n) = .number l.value) ∧
      (¬ (0 ≤ l.value ∧ l.value ≤ n.max) →
        ∃ e, ServerConfig.fromEnvironmentAndFile environment files path = .error e)) ↔
    ¬ n.Wraps l.value := by
  -- loading fails exactly if the literal is rejected
  have hload : (∃ e, ServerConfig.fromEnvironmentAndFile environment files path = .error e) ↔
      n.read l.text = none := by
    rw [load_error_iff]
    constructor
    · rintro ⟨m, raw, hread, hraw⟩
      by_cases hsame : m = n ∧ raw = l.text
      · rw [← hsame.1, ← hsame.2, hread]
      · exact absurd hread (hothers m raw hraw hsame)
    · intro hread
      exact ⟨n, l.text, hread, hgiven⟩
  constructor
  · rintro ⟨-, hrejected⟩ hwraps
    have herror := hload.mp (hrejected fun h => absurd h.1 (Int.not_le.mpr hwraps.1))
    rw [read_wraps hn l hwraps] at herror
    cases herror
  · intro hwraps
    refine ⟨fun hrange heffective => ?_, fun hrange => hload.mpr (read_rejected hn l hrange hwraps)⟩
    have hread := read_inRange hn l hrange
    cases hout : ServerConfig.fromEnvironmentAndFile environment files path with
    | error e =>
      rw [hload.mp ⟨e, hout⟩] at hread
      cases hread
    | ok config =>
      have hvalue := load_value hout (.number n)
      rw [heffective] at hvalue
      have hnumber : Setting.read (.number n) l.text = some (.number l.value) :=
        congrArg (Option.map SettingValue.number) hread
      exact ⟨config, rfl, Option.some.inj (hvalue.symm.trans hnumber)⟩

/-- `+0065535`. -/
def largestPort : DecimalLiteral :=
  ⟨['+'], ['0', '0', '6', '5', '5', '3', '5'], by simp, by simp, List.all_eq_true.mp rfl⟩

/-- An environment with this literal. -/
def portVariable (name : String) : Option String :=
  if name = "CC_DB_PORT" then some "+0065535" else none

/-- The largest port, with a sign and leading zeros. -/
theorem literal_exact_iff_port :
    ∃ config, ServerConfig.fromEnvironmentAndFile portVariable (fun _ => none) "server.conf" =
        .ok config ∧
      config.get (.number .databasePort) = .number 65535 := by
  have htext : largestPort.text = "+0065535" := by decide +kernel
  have hvalue : largestPort.value = 65535 := by decide +kernel
  have hvar : portVariable "CC_DB_PORT" = some largestPort.text ∧ largestPort.text ≠ "" := by
    rw [htext]
    exact ⟨rfl, by decide⟩
  have hexact := (literal_exact_iff .databasePort (by decide) largestPort portVariable
    (fun _ => none) "server.conf" (Or.inr hvar) ?_).mpr ?_
  · rw [hvalue] at hexact
    exact hexact.1 (by decide) (by rw [htext]; rfl)
  · rintro m raw (hraw | hraw) hne
    · cases hraw
    · cases m with
      | databasePort => exact absurd ⟨rfl, Option.some.inj (hraw.1.symm.trans hvar.1)⟩ hne
      | _ => cases hraw.1
  · rw [hvalue]
    exact fun h => absurd h.1 (by decide)

/-- `max_message_size=-1` removes the limit, and a negative port is port 1. -/
theorem negative_literals_accepted :
    (ServerConfig.fromFile (fun _ => some "max_message_size=-1\nport=-18446744073709551615\n")
        "server.conf").toOption =
      some { maxMessageSize := 18446744073709551615, port := 1 } := by
  decide +kernel

end ConsoleCalculator
