import PriceFeed.Library.Properties

/-! Values of data as texts: what `JSON.stringify` writes, and what `JSON.parse` reads. -/

namespace PriceFeed.Library

/-- How finite numbers are written, and read from the beginning of a text. -/
structure NumberFormat (Number : Type*) where
  write : Number → List Char
  read : List Char → Option (Number × List Char)
  -- a number begins with a digit or a sign
  starts : ∀ number, ∃ symbol text, write number = symbol :: text ∧ (symbol.isDigit = true ∨ symbol = '-')
  -- it ends before what follows a value
  read_write : ∀ number rest, (∀ symbol ∈ rest.head?, symbol = ',' ∨ symbol = ']' ∨ symbol = '\x7d') →
    read (write number ++ rest) = some (number, rest)

inductive Json (Number : Type*) where
  | null
  | bool (value : Bool)
  | number (value : Number)
  | string (text : String)
  | array (items : List (Json Number))
  | object (properties : List (String × Json Number))

/-- Natural numbers in decimal. -/
def naturals : NumberFormat ℕ where
  write := Nat.toDigits 10
  read text :=
    match text.takeWhile Char.isDigit with
    | [] => none
    | digits => some (Nat.ofDigitChars 10 digits 0, text.dropWhile Char.isDigit)
  starts number := by
    have digits : ∀ digit ∈ Nat.toDigits 10 number, digit.isDigit = true := fun digit member =>
      Nat.isDigit_of_mem_toDigits (by decide) (by decide) member
    cases written : Nat.toDigits 10 number with
    | nil => exact absurd written Nat.toDigits_ne_nil
    | cons digit text => exact ⟨digit, text, rfl, .inl (digits digit (written ▸ List.mem_cons_self))⟩
  read_write number rest ends := by
    have digits : ∀ digit ∈ Nat.toDigits 10 number, digit.isDigit = true := fun digit member =>
      Nat.isDigit_of_mem_toDigits (by decide) (by decide) member
    have stops : rest.takeWhile Char.isDigit = [] ∧ rest.dropWhile Char.isDigit = rest := by
      cases rest with
      | nil => exact ⟨rfl, rfl⟩
      | cons symbol text =>
        rcases ends symbol rfl with rfl | rfl | rfl
        · exact ⟨rfl, rfl⟩
        · exact ⟨rfl, rfl⟩
        · exact ⟨rfl, rfl⟩
    rw [List.takeWhile_append_of_pos digits, List.dropWhile_append_of_pos digits, stops.1, stops.2, List.append_nil]
    cases written : Nat.toDigits 10 number with
    | nil => exact absurd written Nat.toDigits_ne_nil
    | cons digit text =>
      change some (Nat.ofDigitChars 10 (digit :: text) 0, rest) = _
      rw [← written, Nat.ofDigitChars_ten_toDigits]

/-! Strings. -/

def hexDigit (digit : ℕ) : Char := Nat.digitChar digit

def readHexDigit (symbol : Char) : Option ℕ :=
  if symbol.isDigit then some (symbol.toNat - 48)
  else if 97 ≤ symbol.toNat ∧ symbol.toNat ≤ 102 then some (symbol.toNat - 87)
  else if 65 ≤ symbol.toNat ∧ symbol.toNat ≤ 70 then some (symbol.toNat - 55)
  else none

def readHex (first second third fourth : Char) : Option ℕ := do
  let first ← readHexDigit first
  let second ← readHexDigit second
  let third ← readHexDigit third
  let fourth ← readHexDigit fourth
  return ((first * 16 + second) * 16 + third) * 16 + fourth

/-- Symbols that are written as a backslash and a letter. -/
def shortEscapes : List (Char × Char) :=
  [('\x22', '\x22'), ('\x5c', '\x5c'), ('\x08', 'b'), ('\x0c', 'f'), ('\x0a', 'n'), ('\x0d', 'r'), ('\x09', 't')]

/-- A symbol between quotation marks. -/
def escape (symbol : Char) : List Char :=
  match shortEscapes.find? fun entry => entry.1 = symbol with
  | some entry => ['\x5c', entry.2]
  | none =>
    if symbol.toNat < 32 then
      ['\x5c', 'u', '0', '0', hexDigit (symbol.toNat / 16), hexDigit (symbol.toNat % 16)]
    else [symbol]

/-- What a backslash and a symbol stand for, but for `\u`. -/
def unescape (symbol : Char) : Option Char :=
  (('/', '/') :: shortEscapes).find? (fun entry => entry.2 = symbol) |>.map Prod.fst

/-- The text up to the closing quotation mark, and what follows it. A surrogate that is not
one of a pair has no place in a text. -/
def readText : List Char → Option (List Char × List Char)
  | [] => none
  | '\x22' :: rest => some ([], rest)
  | '\x5c' :: 'u' :: first :: second :: third :: fourth :: rest =>
    match readHex first second third fourth with
    | none => none
    | some code =>
      if code < 55296 ∨ 57343 < code then
        (readText rest).map fun read => (Char.ofNat code :: read.1, read.2)
      else match rest with
        | '\x5c' :: 'u' :: first :: second :: third :: fourth :: rest =>
          match readHex first second third fourth with
          | none => none
          | some low =>
            if code < 56320 ∧ 56320 ≤ low ∧ low ≤ 57343 then
              (readText rest).map fun read =>
                (Char.ofNat (65536 + (code - 55296) * 1024 + (low - 56320)) :: read.1, read.2)
            else none
        | _ => none
  | '\x5c' :: symbol :: rest =>
    match unescape symbol with
    | none => none
    | some read => (readText rest).map fun later => (read :: later.1, later.2)
  | symbol :: rest =>
    if symbol.toNat < 32 then none else (readText rest).map fun read => (symbol :: read.1, read.2)

theorem readHexDigit_hexDigit {digit : ℕ} (small : digit < 16) : readHexDigit (hexDigit digit) = some digit := by
  revert digit
  decide

theorem unescape_of_mem {entry : Char × Char} (member : entry ∈ shortEscapes) :
    unescape entry.2 = some entry.1 ∧ entry.2 ≠ 'u' := by
  revert entry
  decide

theorem readText_backslash {letter : Char} (short : letter ≠ 'u') (rest : List Char) :
    readText ('\x5c' :: letter :: rest) =
      (unescape letter).bind fun symbol => (readText rest).map fun read => (symbol :: read.1, read.2) := by
  rw [readText.eq_def]
  split
  next same => cases same
  next same => cases same
  next same =>
    cases same
    exact absurd rfl short
  next same =>
    cases same
    cases unescape letter <;> rfl
  next other same =>
    cases same
    exact (other letter rest rfl rfl).elim

theorem readText_plain {symbol : Char} (large : 32 ≤ symbol.toNat) (unquoted : symbol ≠ '\x22')
    (unescaped : symbol ≠ '\x5c') (rest : List Char) :
    readText (symbol :: rest) = (readText rest).map fun read => (symbol :: read.1, read.2) := by
  rw [readText.eq_def]
  split
  next same => cases same
  next same =>
    cases same
    exact absurd rfl unquoted
  next same =>
    cases same
    exact absurd rfl unescaped
  next same =>
    cases same
    exact absurd rfl unescaped
  next same =>
    cases same
    rw [if_neg (Nat.not_lt.mpr large)]

theorem readText_escape (symbol : Char) (rest : List Char) : readText (escape symbol ++ rest) =
    (readText rest).map fun read => (symbol :: read.1, read.2) := by
  rw [escape]
  split
  next entry found =>
    obtain ⟨reads, short⟩ := unescape_of_mem (List.mem_of_find?_eq_some found)
    have same : entry.1 = symbol := by simpa using List.find?_some found
    rw [List.cons_append, List.cons_append, List.nil_append, readText_backslash short, reads, same, Option.bind_some]
  next absent =>
    split
    next small =>
      have zero : readHexDigit '0' = some 0 := rfl
      have code : readHex '0' '0' (hexDigit (symbol.toNat / 16)) (hexDigit (symbol.toNat % 16)) =
          some symbol.toNat := by
        rw [readHex, zero, readHexDigit_hexDigit (by omega), readHexDigit_hexDigit (by omega)]
        exact congrArg some (by omega)
      have single : symbol.toNat < 55296 ∨ 57343 < symbol.toNat := .inl (by omega)
      simp only [List.cons_append, List.nil_append]
      rw [readText, code]
      simp only [if_pos single, Char.ofNat_toNat]
    next large =>
      refine readText_plain (Nat.le_of_not_lt large) ?_ ?_ rest
      · rintro rfl
        cases absent
      · rintro rfl
        cases absent

def writeString (text : String) : List Char := '\x22' :: (text.toList.flatMap escape ++ ['\x22'])

def readString : List Char → Option (String × List Char)
  | '\x22' :: rest => (readText rest).map fun read => (String.ofList read.1, read.2)
  | _ => none

theorem readString_writeString (text : String) (rest : List Char) :
    readString (writeString text ++ rest) = some (text, rest) := by
  have body : ∀ symbols, readText (symbols.flatMap escape ++ '\x22' :: rest) = some (symbols, rest) := by
    intro symbols
    induction symbols with
    | nil => rfl
    | cons symbol symbols ih =>
      rw [List.flatMap_cons, List.append_assoc, readText_escape, ih, Option.map_some]
  rw [writeString, List.cons_append, List.append_assoc, List.singleton_append, readString, body]
  simp

/-! Values. -/

section

variable {Number : Type*} (format : NumberFormat Number)

/-- Texts with commas between them. -/
def separate : List (List Char) → List Char
  | [] => []
  | [text] => text
  | text :: texts => text ++ ',' :: separate texts

namespace Json

mutual

def stringify : Json Number → List Char
  | .null => "null".toList
  | .bool true => "true".toList
  | .bool false => "false".toList
  | .number value => format.write value
  | .string text => writeString text
  | .array items => '[' :: (separate (stringifyItems items) ++ [']'])
  | .object properties => '\x7b' :: (separate (stringifyProperties properties) ++ ['\x7d'])

def stringifyItems : List (Json Number) → List (List Char)
  | [] => []
  | item :: items => stringify item :: stringifyItems items

def stringifyProperties : List (String × Json Number) → List (List Char)
  | [] => []
  | (key, value) :: properties =>
    (writeString key ++ ':' :: stringify value) :: stringifyProperties properties

end

def isBlank (symbol : Char) : Bool :=
  symbol = ' ' || symbol = '\x09' || symbol = '\x0a' || symbol = '\x0d'

def skipBlanks (text : List Char) : List Char := text.dropWhile isBlank

mutual

/-- A value at the beginning of a text. The fuel bounds how deep values nest and how many
stand in a row, and nothing is read where it does not suffice. -/
def readValue : ℕ → List Char → Option (Json Number × List Char)
  | 0, _ => none
  | fuel + 1, text =>
    match skipBlanks text with
    | 'n' :: 'u' :: 'l' :: 'l' :: rest => some (.null, rest)
    | 't' :: 'r' :: 'u' :: 'e' :: rest => some (.bool true, rest)
    | 'f' :: 'a' :: 'l' :: 's' :: 'e' :: rest => some (.bool false, rest)
    | '\x22' :: rest => (readString ('\x22' :: rest)).map fun read => (.string read.1, read.2)
    | '[' :: rest =>
      match skipBlanks rest with
      | ']' :: rest => some (.array [], rest)
      | rest => (readItems fuel rest).map fun read => (.array read.1, read.2)
    | '\x7b' :: rest =>
      match skipBlanks rest with
      | '\x7d' :: rest => some (.object [], rest)
      | rest => (readProperties fuel rest).map fun read => (.object (assignAll [] read.1), read.2)
    | rest => (format.read rest).map fun read => (.number read.1, read.2)

/-- Items up to the end of their array. -/
def readItems : ℕ → List Char → Option (List (Json Number) × List Char)
  | 0, _ => none
  | fuel + 1, text =>
    match readValue fuel text with
    | none => none
    | some (item, rest) =>
      match skipBlanks rest with
      | ']' :: rest => some ([item], rest)
      | ',' :: rest => (readItems fuel rest).map fun read => (item :: read.1, read.2)
      | _ => none

/-- Properties up to the end of their object, as they stand there. -/
def readProperties : ℕ → List Char → Option (List (String × Json Number) × List Char)
  | 0, _ => none
  | fuel + 1, text =>
    match readString (skipBlanks text) with
    | none => none
    | some (key, rest) =>
      match skipBlanks rest with
      | ':' :: rest =>
        match readValue fuel rest with
        | none => none
        | some (value, rest) =>
          match skipBlanks rest with
          | '\x7d' :: rest => some ([(key, value)], rest)
          | ',' :: rest => (readProperties fuel rest).map fun read => ((key, value) :: read.1, read.2)
          | _ => none
      | _ => none

end

/-- The value that a whole text spells. Each symbol takes two calls at most. -/
def parse (text : List Char) : Option (Json Number) :=
  match readValue format (2 * text.length) text with
  | some (value, rest) => if skipBlanks rest = [] then some value else none
  | none => none

mutual

/-- Every object lists its properties as objects do. -/
def Canonical : Json Number → Prop
  | .array items => CanonicalItems items
  | .object properties => Listed properties ∧ CanonicalProperties properties
  | _ => True

def CanonicalItems : List (Json Number) → Prop
  | [] => True
  | item :: items => item.Canonical ∧ CanonicalItems items

def CanonicalProperties : List (String × Json Number) → Prop
  | [] => True
  | (_, value) :: properties => value.Canonical ∧ CanonicalProperties properties

end

variable {format} {symbol : Char} {text rest : List Char} {fuel : ℕ}

theorem skipBlanks_cons (visible : isBlank symbol = false) : skipBlanks (symbol :: text) = symbol :: text := by
  rw [skipBlanks, List.dropWhile_cons, visible]
  rfl

theorem not_blank_of_starts (starts : symbol.isDigit = true ∨ symbol = '-') : isBlank symbol = false := by
  rcases starts with digit | rfl
  · rw [← Bool.not_eq_true]
    intro blank
    simp only [isBlank, Bool.or_eq_true, decide_eq_true_eq] at blank
    rcases blank with ((rfl | rfl) | rfl) | rfl
    · cases digit
    · cases digit
    · cases digit
    · cases digit
  · rfl

theorem readValue_number (starts : symbol.isDigit = true ∨ symbol = '-') :
    readValue format (fuel + 1) (symbol :: text) =
      (format.read (symbol :: text)).map fun read => (.number read.1, read.2) := by
  rw [readValue, skipBlanks_cons (not_blank_of_starts starts)]
  split
  next same => cases same; exact absurd starts (by decide)
  next same => cases same; exact absurd starts (by decide)
  next same => cases same; exact absurd starts (by decide)
  next same => cases same; exact absurd starts (by decide)
  next same => cases same; exact absurd starts (by decide)
  next same => cases same; exact absurd starts (by decide)
  next => rfl

variable (format) in
theorem stringify_head (value : Json Number) :
    ∃ symbol text, stringify format value = symbol :: text ∧ isBlank symbol = false ∧ symbol ≠ ']' := by
  cases value with
  | null => exact ⟨'n', "ull".toList, rfl, rfl, by decide⟩
  | bool value =>
    cases value with
    | true => exact ⟨'t', "rue".toList, rfl, rfl, by decide⟩
    | false => exact ⟨'f', "alse".toList, rfl, rfl, by decide⟩
  | number value =>
    obtain ⟨symbol, text, written, starts⟩ := format.starts value
    refine ⟨symbol, text, written, not_blank_of_starts starts, ?_⟩
    rintro rfl
    cases starts with
    | inl digit => cases digit
    | inr dash => cases dash
  | string text => exact ⟨'\x22', _, rfl, rfl, by decide⟩
  | array items => exact ⟨'[', _, rfl, rfl, by decide⟩
  | object properties => exact ⟨'\x7b', _, rfl, rfl, by decide⟩

/-- What can follow a value: the end, a comma, or the end of what it is in. -/
def Ends (rest : List Char) : Prop := ∀ symbol ∈ rest.head?, symbol = ',' ∨ symbol = ']' ∨ symbol = '\x7d'

theorem ends_cons (ends : symbol = ',' ∨ symbol = ']' ∨ symbol = '\x7d') : Ends (symbol :: rest) := by
  intro first same
  cases same
  exact ends

theorem readValue_string (text : String) :
    readValue format (fuel + 1) (writeString text ++ rest) = some (.string text, rest) := by
  have read := readString_writeString text rest
  rw [writeString, List.cons_append] at read ⊢
  rw [readValue, skipBlanks_cons rfl]
  change (readString _).map _ = _
  rw [read]
  rfl

theorem readValue_array {items : List (Json Number)} (started : symbol ≠ ']') (visible : isBlank symbol = false)
    (read : readItems format fuel (symbol :: text) = some (items, rest)) :
    readValue format (fuel + 1) ('[' :: symbol :: text) = some (.array items, rest) := by
  rw [readValue, skipBlanks_cons rfl]
  simp only [skipBlanks_cons visible]
  split
  next same =>
    cases same
    exact absurd rfl started
  next =>
    rw [read]
    rfl

theorem readValue_object {properties : List (String × Json Number)} (listed : Listed properties)
    (read : readProperties format fuel ('\x22' :: text) = some (properties, rest)) :
    readValue format (fuel + 1) ('\x7b' :: '\x22' :: text) = some (.object properties, rest) := by
  rw [readValue, skipBlanks_cons rfl]
  change (match skipBlanks ('\x22' :: text) with
    | '\x7d' :: rest => some (Json.object [], rest)
    | rest => (readProperties format fuel rest).map fun (read : _ × List Char) =>
        (.object (assignAll [] read.1), read.2)) = _
  rw [skipBlanks_cons rfl]
  change (readProperties format fuel ('\x22' :: text)).map _ = _
  rw [read, Option.map_some, assignAll_listed listed]

/-- One item, and the end or the other items. -/
theorem readItems_cons {item : Json Number} {items : List (Json Number)} {after : List Char}
    (first : readValue format fuel text = some (item, after))
    (later : (after = ']' :: rest ∧ items = []) ∨
      ∃ more, after = ',' :: more ∧ readItems format fuel more = some (items, rest)) :
    readItems format (fuel + 1) text = some (item :: items, rest) := by
  rw [readItems, first]
  rcases later with ⟨rfl, rfl⟩ | ⟨more, rfl, read⟩
  · simp only [skipBlanks_cons (show isBlank ']' = false from rfl)]
  · simp only [skipBlanks_cons (show isBlank ',' = false from rfl), read, Option.map_some]

theorem readProperties_cons {key : String} {value : Json Number} {properties : List (String × Json Number)}
    {after : List Char} (first : readValue format fuel text = some (value, after))
    (later : (after = '\x7d' :: rest ∧ properties = []) ∨
      ∃ more, after = ',' :: more ∧ readProperties format fuel more = some (properties, rest)) :
    readProperties format (fuel + 1) (writeString key ++ ':' :: text) = some ((key, value) :: properties, rest) := by
  have read := readString_writeString key (':' :: text)
  rw [readProperties]
  rw [writeString, List.cons_append] at read ⊢
  rw [skipBlanks_cons rfl, read]
  simp only [skipBlanks_cons (show isBlank ':' = false from rfl), first]
  rcases later with ⟨rfl, rfl⟩ | ⟨more, rfl, others⟩
  · simp only [skipBlanks_cons (show isBlank '\x7d' = false from rfl)]
  · simp only [skipBlanks_cons (show isBlank ',' = false from rfl), others, Option.map_some]

theorem separate_head (texts : List (List Char)) (written : text = symbol :: rest) :
    ∃ more, separate (text :: texts) = symbol :: more := by
  subst written
  cases texts with
  | nil => exact ⟨rest, rfl⟩
  | cons second texts => exact ⟨_, rfl⟩

mutual

/-- A value is read as it was written, whatever ends it. -/
theorem readValue_stringify : ∀ (value : Json Number), value.Canonical → ∀ (fuel : ℕ) (rest : List Char),
    2 * (stringify format value).length ≤ fuel → Ends rest →
      readValue format fuel (stringify format value ++ rest) = some (value, rest)
  | .null, _, fuel + 1, rest, _, _ => rfl
  | .bool true, _, fuel + 1, rest, _, _ => rfl
  | .bool false, _, fuel + 1, rest, _, _ => rfl
  | .number value, _, fuel + 1, rest, _, ends => by
    obtain ⟨symbol, text, written, starts⟩ := format.starts value
    have read := format.read_write value rest ends
    rw [stringify, written, List.cons_append] at *
    rw [readValue_number starts, read, Option.map_some]
  | .string text, _, fuel + 1, rest, _, _ => readValue_string text
  | .array [], _, fuel + 1, rest, _, _ => rfl
  | .array (item :: items), canonical, fuel + 1, rest, enough, _ => by
    obtain ⟨symbol, text, head, visible, started⟩ := stringify_head format item
    have read := readItems_stringify (item :: items) canonical (List.cons_ne_nil _ _) fuel rest (by
      simp only [stringify, List.length_cons, List.length_append, List.length_nil] at enough
      omega)
    obtain ⟨more, begins⟩ := separate_head (stringifyItems format items) head
    change readValue format (fuel + 1) ('[' :: (separate (stringifyItems format (item :: items)) ++ [']'] ++ rest)) = _
    rw [List.append_assoc, List.singleton_append]
    rw [stringifyItems, begins, List.cons_append] at read ⊢
    exact readValue_array started visible read
  | .object [], _, fuel + 1, rest, _, _ => rfl
  | .object ((key, value) :: properties), canonical, fuel + 1, rest, enough, _ => by
    have read := readProperties_stringify ((key, value) :: properties) canonical.2 (List.cons_ne_nil _ _) fuel rest (by
      simp only [stringify, List.length_cons, List.length_append, List.length_nil] at enough
      omega)
    obtain ⟨more, begins⟩ : ∃ more, separate (stringifyProperties format ((key, value) :: properties)) = '\x22' :: more :=
      separate_head (stringifyProperties format properties) rfl
    change readValue format (fuel + 1)
      ('\x7b' :: (separate (stringifyProperties format ((key, value) :: properties)) ++ ['\x7d'] ++ rest)) = _
    rw [List.append_assoc, List.singleton_append]
    rw [begins, List.cons_append] at read ⊢
    exact readValue_object canonical.1 read
  | value, _, 0, rest, enough, _ => by
    obtain ⟨symbol, text, head, _⟩ := stringify_head format value
    rw [head] at enough
    simp at enough

theorem readItems_stringify : ∀ (items : List (Json Number)), CanonicalItems items → items ≠ [] →
    ∀ (fuel : ℕ) (rest : List Char), 2 * (separate (stringifyItems format items)).length < fuel →
      readItems format fuel (separate (stringifyItems format items) ++ ']' :: rest) = some (items, rest)
  | [], _, present, _, _, _ => absurd rfl present
  | [item], canonical, _, fuel + 1, rest, enough => by
    change 2 * (stringify format item).length < fuel + 1 at enough
    refine readItems_cons (readValue_stringify item canonical.1 fuel _ (by omega) (ends_cons (.inr (.inl rfl)))) ?_
    exact .inl ⟨rfl, rfl⟩
  | item :: second :: items, canonical, _, fuel + 1, rest, enough => by
    have text : separate (stringifyItems format (item :: second :: items)) =
        stringify format item ++ ',' :: separate (stringifyItems format (second :: items)) := rfl
    rw [text, List.length_append, List.length_cons] at enough
    rw [text, List.append_assoc, List.cons_append]
    refine readItems_cons (readValue_stringify item canonical.1 fuel _ (by omega) (ends_cons (.inl rfl))) ?_
    exact .inr ⟨_, rfl, readItems_stringify (second :: items) canonical.2 (List.cons_ne_nil _ _) fuel rest (by omega)⟩
  | _, _, _, 0, _, enough => absurd enough (Nat.not_lt_zero _)

theorem readProperties_stringify : ∀ (properties : List (String × Json Number)),
    CanonicalProperties properties → properties ≠ [] →
      ∀ (fuel : ℕ) (rest : List Char), 2 * (separate (stringifyProperties format properties)).length < fuel →
        readProperties format fuel (separate (stringifyProperties format properties) ++ '\x7d' :: rest) =
          some (properties, rest)
  | [], _, present, _, _, _ => absurd rfl present
  | [(key, value)], canonical, _, fuel + 1, rest, enough => by
    have text : separate (stringifyProperties format [(key, value)]) =
        writeString key ++ ':' :: stringify format value := rfl
    rw [text, List.length_append, List.length_cons] at enough
    rw [text, List.append_assoc, List.cons_append]
    refine readProperties_cons (readValue_stringify value canonical.1 fuel _ (by omega) (ends_cons (.inr (.inr rfl)))) ?_
    exact .inl ⟨rfl, rfl⟩
  | (key, value) :: second :: properties, canonical, _, fuel + 1, rest, enough => by
    have text : separate (stringifyProperties format ((key, value) :: second :: properties)) =
        writeString key ++ ':' :: (stringify format value ++
          ',' :: separate (stringifyProperties format (second :: properties))) :=
      List.append_assoc _ _ _
    rw [text, List.length_append, List.length_cons, List.length_append, List.length_cons] at enough
    rw [text, List.append_assoc, List.cons_append, List.append_assoc, List.cons_append]
    refine readProperties_cons (readValue_stringify value canonical.1 fuel _ (by omega) (ends_cons (.inl rfl))) ?_
    exact .inr ⟨_, rfl, readProperties_stringify (second :: properties) canonical.2 (List.cons_ne_nil _ _) fuel rest
      (by omega)⟩
  | _, _, _, 0, _, enough => absurd enough (Nat.not_lt_zero _)

end

/-- What is written is read back. -/
theorem parse_stringify {value : Json Number} (canonical : value.Canonical) :
    parse format (stringify format value) = some value := by
  have read := readValue_stringify value canonical _ [] (Nat.le_refl (2 * (stringify format value).length)) fun _ none => by
    cases none
  rw [List.append_nil] at read
  rw [parse, read]
  rfl

end Json

end

end PriceFeed.Library
