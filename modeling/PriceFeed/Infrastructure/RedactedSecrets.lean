import Mathlib.Data.List.TakeWhile
import PriceFeed.Infrastructure.LogRedaction

/-! Which log records `winstonRedactFormatter` shows no secret of: those in which the walk meets
every buffer and every string under a secret key before it throws. -/

namespace PriceFeed.Infrastructure

/-- A property as the walk meets it, in the call of a depth. -/
structure Place (Primitive : Type) where
  depth : ℕ
  key : String
  isReadOnly : Bool
  value : LogValue Primitive

variable {Primitive : Type}

namespace Place

/-- A buffer, or a string under a secret key. -/
def isSensitive (isSecret : IsSecret) (place : Place Primitive) : Bool :=
  match place.value with
  | .buffer _ => true
  | .string _ => isSecret.key place.key
  | _ => false

/-- The walk throws here: the stack has no room for the call that goes into the object, or what is
to be replaced is read-only. -/
def isObstacle (stack : ℕ) (isSecret : IsSecret) (place : Place Primitive) : Bool :=
  match place.value with
  | .object _ _ _ => stack ≤ place.depth
  | value => place.isReadOnly && (recordFormatter isSecret place.key value).isSome

end Place

mutual

/-- The places of a value, in the order of the walk. -/
def LogValue.places (depth : ℕ) (key : String) (isReadOnly : Bool) :
    LogValue Primitive → List (Place Primitive)
  | .object kind readOnly entries =>
    ⟨depth, key, isReadOnly, .object kind readOnly entries⟩ :: entriesPlaces (depth + 1) readOnly entries
  | .string text => [⟨depth, key, isReadOnly, .string text⟩]
  | .buffer bytes => [⟨depth, key, isReadOnly, .buffer bytes⟩]
  | .primitive value => [⟨depth, key, isReadOnly, .primitive value⟩]

def entriesPlaces (depth : ℕ) (readOnly : List String) :
    List (String × LogValue Primitive) → List (Place Primitive)
  | [] => []
  | (key, value) :: rest =>
    value.places depth key (decide (key ∈ readOnly)) ++ entriesPlaces depth readOnly rest

end

section Conditions

variable (stack : ℕ) (isSecret : IsSecret)

/-- The walk meets no obstacle. -/
def Clear (places : List (Place Primitive)) : Prop :=
  ∀ place ∈ places, place.isObstacle stack isSecret = false

/-- There is nothing to hide. -/
def Bare (places : List (Place Primitive)) : Prop := ∀ place ∈ places, place.isSensitive isSecret = false

/-- There is nothing to hide at the first obstacle or behind it. -/
def BareFromObstacle (places : List (Place Primitive)) : Prop :=
  Bare isSecret (places.dropWhile fun place => !place.isObstacle stack isSecret)

mutual

/-- Values under a key that differ only in the contents of buffers and in strings under secret keys. -/
inductive Alike : String → LogValue Primitive → LogValue Primitive → Prop
  | same (key : String) (value : LogValue Primitive) : Alike key value value
  | secret (first second : String) (named : isSecret.key key) : Alike key (.string first) (.string second)
  | buffer (key : String) (first second : List UInt8) : Alike key (.buffer first) (.buffer second)
  | object (key : String) (kind : ObjectKind) (readOnly : List String) (entries : AlikeEntries first second) :
      Alike key (.object kind readOnly first) (.object kind readOnly second)

inductive AlikeEntries : List (String × LogValue Primitive) → List (String × LogValue Primitive) → Prop
  | nil : AlikeEntries [] []
  | cons (here : Alike key first second) (rest : AlikeEntries firstRest secondRest) :
      AlikeEntries ((key, first) :: firstRest) ((key, second) :: secondRest)

end

end Conditions

/-- A value by the keys of the objects that lead to it and its own. -/
inductive Reaches : List (String × LogValue Primitive) → List String → String → LogValue Primitive → Prop
  | here {entries : List (String × LogValue Primitive)} {key : String} {value : LogValue Primitive}
      (member : (key, value) ∈ entries) : Reaches entries [] key value
  | inside {entries inner : List (String × LogValue Primitive)} {outer : String} {kind : ObjectKind}
      {readOnly : List String} (member : (outer, .object kind readOnly inner) ∈ entries)
      (reaches : Reaches inner path key value) : Reaches entries (outer :: path) key value

/-- A leaf that is no secret, neither by its key nor by its value. -/
def OpenLeaf (isSecret : IsSecret) (key : String) : LogValue Primitive → Prop
  | .primitive _ => True
  | .string text => isSecret.key key = false ∧ isSecret.value text = false
  | _ => False

variable {stack depth : ℕ} {isSecret : IsSecret} {key : String} {kind : ObjectKind} {readOnly : List String}
  {isReadOnly : Bool} {places later : List (Place Primitive)}

theorem bareFromObstacle_cons {place : Place Primitive} : BareFromObstacle stack isSecret (place :: places) ↔
    if place.isObstacle stack isSecret then Bare isSecret (place :: places)
    else BareFromObstacle stack isSecret places := by
  rw [BareFromObstacle, List.dropWhile_cons]
  cases place.isObstacle stack isSecret <;> simp [BareFromObstacle]

theorem bareFromObstacle_clear (clear : Clear stack isSecret places) :
    BareFromObstacle stack isSecret places := by
  have none : places.dropWhile (fun place => !place.isObstacle stack isSecret) = [] := by
    rw [List.dropWhile_eq_nil_iff]
    intro place member
    simp [clear place member]
  rw [BareFromObstacle, none]
  exact List.forall_mem_nil _

theorem bareFromObstacle_append_clear (clear : Clear stack isSecret places) :
    BareFromObstacle stack isSecret (places ++ later) ↔ BareFromObstacle stack isSecret later := by
  induction places with
  | nil => rfl
  | cons place places ih =>
    obtain ⟨here, others⟩ := List.forall_mem_cons.mp clear
    rw [List.cons_append, bareFromObstacle_cons, here, if_neg Bool.false_ne_true, ih others]

theorem bareFromObstacle_append_obstructed (obstructed : ¬ Clear stack isSecret places) :
    BareFromObstacle stack isSecret (places ++ later) ↔
      BareFromObstacle stack isSecret places ∧ Bare isSecret later := by
  induction places with
  | nil => exact absurd (fun _ member => nomatch member) obstructed
  | cons place places ih =>
    rw [List.cons_append, bareFromObstacle_cons, bareFromObstacle_cons]
    by_cases obstacle : place.isObstacle stack isSecret = true
    · rw [if_pos obstacle, if_pos obstacle, ← List.cons_append]
      exact List.forall_mem_append
    · rw [if_neg obstacle, if_neg obstacle]
      refine ih fun clear => obstructed (List.forall_mem_cons.mpr ⟨?_, clear⟩)
      exact Bool.eq_false_iff.mpr obstacle

private theorem clear_append : Clear stack isSecret (places ++ later) ↔
    Clear stack isSecret places ∧ Clear stack isSecret later := List.forall_mem_append

theorem isOk_onBoth {change : First → Second} {result : Except First First} :
    (onBoth change result).isOk = result.isOk := by
  cases result <;> rfl

/-- A leaf is its only place. -/
theorem isOk_leaf {value : LogValue Primitive} (leaf : ∀ kind readOnly entries, value ≠ .object kind readOnly entries) :
    (redactValue stack isSecret depth key isReadOnly value).isOk ↔
      Clear stack isSecret (value.places depth key isReadOnly) := by
  cases value with
  | primitive value =>
    simp [redactValue, LogValue.places, Clear, Place.isObstacle, recordFormatter, Except.isOk, Except.toBool]
  | string text =>
    by_cases secret : key ≠ "" ∧ (isSecret.key key ∨ isSecret.value text) <;>
    cases isReadOnly <;>
    simp [redactValue, LogValue.places, Clear, Place.isObstacle, recordFormatter, Except.isOk, Except.toBool, secret]
  | buffer bytes =>
    cases isReadOnly <;>
    simp [redactValue, LogValue.places, Clear, Place.isObstacle, recordFormatter, Except.isOk, Except.toBool]
  | object kind readOnly entries => exact absurd rfl (leaf kind readOnly entries)

mutual

/-- A value is gone through to its end if no obstacle is met in it. -/
theorem isOk_redactValue (depth : ℕ) (key : String) (isReadOnly : Bool) : (value : LogValue Primitive) →
    ((redactValue stack isSecret depth key isReadOnly value).isOk ↔
      Clear stack isSecret (value.places depth key isReadOnly))
  | .primitive _ => isOk_leaf (by simp)
  | .string _ => isOk_leaf (by simp)
  | .buffer _ => isOk_leaf (by simp)
  | .object kind readOnly entries => by
    have inner := isOk_redactEntries (depth + 1) readOnly entries
    rw [redactValue, LogValue.places, Clear, List.forall_mem_cons]
    by_cases full : stack ≤ depth
    · simp [full, Place.isObstacle, Except.isOk, Except.toBool]
    · rw [if_neg full, isOk_onBoth, inner]
      simp [full, Place.isObstacle, Clear]

theorem isOk_redactEntries (depth : ℕ) (readOnly : List String) :
    (entries : List (String × LogValue Primitive)) →
      ((redactEntries stack isSecret depth readOnly entries).isOk ↔
        Clear stack isSecret (entriesPlaces depth readOnly entries))
  | [] => by simp [redactEntries, entriesPlaces, Clear, Except.isOk, Except.toBool]
  | (key, value) :: rest => by
    have here := isOk_redactValue depth key (decide (key ∈ readOnly)) value
    have later := isOk_redactEntries depth readOnly rest
    rw [redactEntries, entriesPlaces, clear_append, ← here, ← later]
    cases redactValue stack isSecret depth key (decide (key ∈ readOnly)) value with
    | ok redacted =>
      rw [isOk_onBoth]
      exact (and_iff_right rfl).symm
    | error left => simp [Except.isOk, Except.toBool]

end

mutual

/-- Where there is nothing to hide, values that are alike are the same. -/
theorem Alike.eq_of_bare {key : String} {first second : LogValue Primitive} (depth : ℕ) (isReadOnly : Bool) :
    Alike isSecret key first second → Bare isSecret (first.places depth key isReadOnly) → first = second
  | .same _ _, _ => rfl
  | .secret _ _ named, bare => by
    have shown := bare _ List.mem_cons_self
    simp [Place.isSensitive, named] at shown
  | .buffer _ _ _, bare => by
    have shown := bare _ List.mem_cons_self
    simp [Place.isSensitive] at shown
  | .object _ kind readOnly entries, bare => by
    rw [AlikeEntries.eq_of_bare (depth + 1) readOnly entries (List.forall_mem_cons.mp bare).2]

theorem AlikeEntries.eq_of_bare {first second : List (String × LogValue Primitive)} (depth : ℕ)
    (readOnly : List String) : AlikeEntries isSecret first second →
      Bare isSecret (entriesPlaces depth readOnly first) → first = second
  | .nil, _ => rfl
  | .cons here rest, bare => by
    obtain ⟨own, later⟩ := List.forall_mem_append.mp bare
    have same := Alike.eq_of_bare depth _ here own
    have others := AlikeEntries.eq_of_bare depth readOnly rest later
    rw [same, others]

end

theorem AlikeEntries.refl : (entries : List (String × LogValue Primitive)) → AlikeEntries isSecret entries entries
  | [] => .nil
  | (_, _) :: rest => .cons (.same _ _) (AlikeEntries.refl rest)

private theorem ne_empty_of_named (unnamed : isSecret.key "" = false) (named : isSecret.key key) : key ≠ "" := by
  rintro rfl
  rw [unnamed] at named
  cases named

/-- The first entry is redacted alike, and so are the others, or they are the same and stay. -/
private theorem redactEntries_cons_eq {value other : LogValue Primitive}
    {rest others : List (String × LogValue Primitive)}
    (here : BareFromObstacle stack isSecret (value.places depth key (decide (key ∈ readOnly))) →
      redactValue stack isSecret depth key (decide (key ∈ readOnly)) value =
        redactValue stack isSecret depth key (decide (key ∈ readOnly)) other)
    (redacted : BareFromObstacle stack isSecret (entriesPlaces depth readOnly rest) →
      redactEntries stack isSecret depth readOnly rest = redactEntries stack isSecret depth readOnly others)
    (same : Bare isSecret (entriesPlaces depth readOnly rest) → rest = others)
    (bare : BareFromObstacle stack isSecret (entriesPlaces depth readOnly ((key, value) :: rest))) :
    redactEntries stack isSecret depth readOnly ((key, value) :: rest) =
      redactEntries stack isSecret depth readOnly ((key, other) :: others) := by
  have ends : (redactValue stack isSecret depth key (decide (key ∈ readOnly)) value).isOk ↔ _ :=
    isOk_redactValue depth key (decide (key ∈ readOnly)) value
  rw [entriesPlaces] at bare
  by_cases clear : Clear stack isSecret (value.places depth key (decide (key ∈ readOnly)))
  · have later := redacted ((bareFromObstacle_append_clear clear).mp bare)
    have completes := ends.mpr clear
    rw [redactEntries, redactEntries, ← here (bareFromObstacle_clear clear)]
    cases found : redactValue stack isSecret depth key (decide (key ∈ readOnly)) value with
    | ok value => simp only [later]
    | error left => rw [found] at completes; cases completes
  · obtain ⟨own, later⟩ := (bareFromObstacle_append_obstructed clear).mp bare
    rw [redactEntries, redactEntries, ← here own, same later]

mutual

/-- What the walk has left of values that are alike is the same, if nothing to hide comes at the
first obstacle or behind it. -/
theorem Alike.redactValue_eq (unnamed : isSecret.key "" = false) {key : String}
    {first second : LogValue Primitive} (depth : ℕ) (isReadOnly : Bool) : Alike isSecret key first second →
      BareFromObstacle stack isSecret (first.places depth key isReadOnly) →
        redactValue stack isSecret depth key isReadOnly first =
          redactValue stack isSecret depth key isReadOnly second
  | .same _ _, _ => rfl
  | .secret first second named, bare => by
    have some := ne_empty_of_named unnamed named
    rw [LogValue.places, bareFromObstacle_cons] at bare
    cases isReadOnly with
    | false => simp [redactValue, named, some]
    | true => simp [Place.isObstacle, recordFormatter, named, some, Bare, Place.isSensitive] at bare
  | .buffer _ first second, bare => by
    rw [LogValue.places, bareFromObstacle_cons] at bare
    cases isReadOnly with
    | false => rfl
    | true => simp [Place.isObstacle, recordFormatter, Bare, Place.isSensitive] at bare
  | .object _ kind readOnly entries, bare => by
    rw [LogValue.places, bareFromObstacle_cons] at bare
    rw [redactValue, redactValue]
    by_cases full : stack ≤ depth
    · rw [if_pos (by simpa [Place.isObstacle] using full)] at bare
      have same := AlikeEntries.eq_of_bare (depth + 1) readOnly entries (List.forall_mem_cons.mp bare).2
      rw [same]
    · rw [if_neg (by simpa [Place.isObstacle] using full)] at bare
      have same := AlikeEntries.redactEntries_eq unnamed (depth + 1) readOnly entries bare
      rw [if_neg full, if_neg full, same]

theorem AlikeEntries.redactEntries_eq (unnamed : isSecret.key "" = false)
    {first second : List (String × LogValue Primitive)} (depth : ℕ) (readOnly : List String) :
    AlikeEntries isSecret first second → BareFromObstacle stack isSecret (entriesPlaces depth readOnly first) →
      redactEntries stack isSecret depth readOnly first = redactEntries stack isSecret depth readOnly second
  | .nil, _ => rfl
  | .cons here rest, bare =>
    redactEntries_cons_eq (Alike.redactValue_eq unnamed depth _ here)
      (AlikeEntries.redactEntries_eq unnamed depth readOnly rest) (rest.eq_of_bare depth readOnly) bare

end

theorem push_ne (text : String) (symbol : Char) : text.push symbol ≠ text := by
  intro same
  have lengths := congrArg String.length same
  rw [String.length_push] at lengths
  omega

mutual

private theorem exists_alike_ne (depth : ℕ) (key : String) (isReadOnly : Bool) : (value : LogValue Primitive) →
    ¬ Bare isSecret (value.places depth key isReadOnly) → ∃ second, Alike isSecret key value second ∧ second ≠ value
  | .primitive value, held => by simp [Bare, LogValue.places, Place.isSensitive] at held
  | .string text, held => by
    have named : isSecret.key key = true := by simpa [Bare, LogValue.places, Place.isSensitive] using held
    exact ⟨_, .secret text (text.push 'x') named, by simpa using push_ne text 'x'⟩
  | .buffer bytes, _ => ⟨_, .buffer key bytes (0 :: bytes), by simp⟩
  | .object kind readOnly entries, held => by
    have inner : ¬ Bare isSecret (entriesPlaces (depth + 1) readOnly entries) := by
      intro bare
      exact held (List.forall_mem_cons.mpr ⟨rfl, bare⟩)
    obtain ⟨others, alike, differ⟩ := exists_alikeEntries_ne (depth + 1) readOnly entries inner
    exact ⟨_, .object key kind readOnly alike, by simpa using differ⟩

theorem exists_alikeEntries_ne (depth : ℕ) (readOnly : List String) :
    (entries : List (String × LogValue Primitive)) → ¬ Bare isSecret (entriesPlaces depth readOnly entries) →
      ∃ others, AlikeEntries isSecret entries others ∧ others ≠ entries
  | [], held => absurd (List.forall_mem_nil _) held
  | (key, value) :: rest, held => by
    by_cases own : Bare isSecret (value.places depth key (decide (key ∈ readOnly)))
    · have later : ¬ Bare isSecret (entriesPlaces depth readOnly rest) := fun bare =>
        held (List.forall_mem_append.mpr ⟨own, bare⟩)
      obtain ⟨others, alike, differ⟩ := exists_alikeEntries_ne depth readOnly rest later
      exact ⟨(key, value) :: others, .cons (.same key value) alike, by simpa using differ⟩
    · obtain ⟨second, alike, differ⟩ := exists_alike_ne depth key _ value own
      exact ⟨(key, second) :: rest, .cons alike (.refl rest), by simpa using differ⟩

end

mutual

/-- Something to hide at the first obstacle or behind it is seen in what the walk has left. -/
theorem exists_shown (depth : ℕ) (key : String) (isReadOnly : Bool) : (value : LogValue Primitive) →
    ¬ BareFromObstacle stack isSecret (value.places depth key isReadOnly) →
      ∃ second, Alike isSecret key value second ∧
        outcome (redactValue stack isSecret depth key isReadOnly second) ≠
          outcome (redactValue stack isSecret depth key isReadOnly value)
  | .primitive value, held => by
    simp [BareFromObstacle, Bare, LogValue.places, Place.isObstacle, recordFormatter] at held
  | .string text, held => by
    simp only [BareFromObstacle, Bare, LogValue.places, List.dropWhile_cons, Place.isObstacle] at held
    split at held
    · simp at held
    · next obstacle =>
      have named : isSecret.key key = true := by simpa [Place.isSensitive] using held
      have thrown : isReadOnly = true ∧ key ≠ "" := by
        simpa [recordFormatter, named] using obstacle
      refine ⟨_, .secret text (text.push 'x') named, ?_⟩
      simpa [redactValue, thrown, named, outcome] using push_ne text 'x'
  | .buffer bytes, held => by
    simp only [BareFromObstacle, Bare, LogValue.places, List.dropWhile_cons, Place.isObstacle] at held
    split at held
    · simp at held
    · next obstacle =>
      have thrown : isReadOnly = true := by simpa [recordFormatter] using obstacle
      exact ⟨_, .buffer key bytes (0 :: bytes), by simp [redactValue, thrown, outcome]⟩
  | .object kind readOnly entries, held => by
    rw [LogValue.places, bareFromObstacle_cons] at held
    by_cases full : stack ≤ depth
    · rw [if_pos (by simpa [Place.isObstacle] using full)] at held
      have inner : ¬ Bare isSecret (entriesPlaces (depth + 1) readOnly entries) := by
        intro bare
        exact held (List.forall_mem_cons.mpr ⟨rfl, bare⟩)
      obtain ⟨others, alike, differ⟩ := exists_alikeEntries_ne (depth + 1) readOnly entries inner
      refine ⟨_, .object key kind readOnly alike, ?_⟩
      rw [redactValue, redactValue, if_pos full, if_pos full]
      simpa [outcome] using differ
    · rw [if_neg (by simpa [Place.isObstacle] using full)] at held
      obtain ⟨others, alike, differ⟩ := exists_shownEntries (depth + 1) readOnly entries held
      refine ⟨_, .object key kind readOnly alike, ?_⟩
      rw [redactValue, redactValue, if_neg full, if_neg full, outcome_onBoth, outcome_onBoth]
      simpa using differ

theorem exists_shownEntries (depth : ℕ) (readOnly : List String) :
    (entries : List (String × LogValue Primitive)) →
      ¬ BareFromObstacle stack isSecret (entriesPlaces depth readOnly entries) →
        ∃ others, AlikeEntries isSecret entries others ∧
          outcome (redactEntries stack isSecret depth readOnly others) ≠
            outcome (redactEntries stack isSecret depth readOnly entries)
  | [], held => absurd (List.forall_mem_nil _) held
  | (key, value) :: rest, held => by
    have ends : (redactValue stack isSecret depth key (decide (key ∈ readOnly)) value).isOk ↔ _ :=
      isOk_redactValue depth key (decide (key ∈ readOnly)) value
    rw [entriesPlaces] at held
    by_cases own : BareFromObstacle stack isSecret (value.places depth key (decide (key ∈ readOnly)))
    · by_cases clear : Clear stack isSecret (value.places depth key (decide (key ∈ readOnly)))
      · rw [bareFromObstacle_append_clear clear] at held
        obtain ⟨others, alike, differ⟩ := exists_shownEntries depth readOnly rest held
        refine ⟨(key, value) :: others, .cons (.same key value) alike, ?_⟩
        rw [outcome_redactEntries_cons, outcome_redactEntries_cons, if_pos (ends.mpr clear)]
        simpa [ends.mpr clear] using differ
      · rw [bareFromObstacle_append_obstructed clear, and_iff_right own] at held
        obtain ⟨others, alike, differ⟩ := exists_alikeEntries_ne depth readOnly rest held
        refine ⟨(key, value) :: others, .cons (.same key value) alike, ?_⟩
        rw [outcome_redactEntries_cons, outcome_redactEntries_cons]
        simpa [mt ends.mp clear] using differ
    · obtain ⟨second, alike, differ⟩ := exists_shown depth key _ value own
      refine ⟨(key, second) :: rest, .cons alike (.refl rest), ?_⟩
      rw [outcome_redactEntries_cons, outcome_redactEntries_cons]
      intro same
      exact differ (Prod.mk.inj (List.cons.inj same).1).2

end

/-- An entry is redacted or stays. -/
theorem mem_redactEntries {value : LogValue Primitive} {entries : List (String × LogValue Primitive)}
    (member : (key, value) ∈ entries) :
    ∃ left, (left = value ∨ left = outcome (redactValue stack isSecret depth key (decide (key ∈ readOnly)) value)) ∧
      (key, left) ∈ outcome (redactEntries stack isSecret depth readOnly entries) := by
  induction entries with
  | nil => cases member
  | cons entry rest ih =>
    obtain ⟨other, first⟩ := entry
    rw [outcome_redactEntries_cons]
    rcases List.mem_cons.mp member with same | later
    · cases same
      exact ⟨_, .inr rfl, List.mem_cons_self⟩
    · split
      · obtain ⟨left, is, held⟩ := ih later
        exact ⟨left, is, List.mem_cons_of_mem _ held⟩
      · exact ⟨value, .inl rfl, List.mem_cons_of_mem _ later⟩

/-- The walk leaves what is no secret as it is. -/
theorem Reaches.redacted {entries : List (String × LogValue Primitive)} {path : List String}
    {value : LogValue Primitive} (reaches : Reaches entries path key value) (leaf : OpenLeaf isSecret key value)
    (depth : ℕ) (readOnly : List String) :
    Reaches (outcome (redactEntries stack isSecret depth readOnly entries)) path key value := by
  induction reaches generalizing depth readOnly with
  | @here entries key value member =>
    obtain ⟨left, is, held⟩ := mem_redactEntries member
    have stays : outcome (redactValue stack isSecret depth key (decide (key ∈ readOnly)) value) = value := by
      cases value with
      | primitive value => rfl
      | string text => simp [redactValue, leaf.1, leaf.2, outcome]
      | buffer bytes => exact leaf.elim
      | object kind names entries => exact leaf.elim
    rw [stays, or_self] at is
    exact .here (is ▸ held)
  | @inside _ _ _ entries inner outer kind names member reaches ih =>
    obtain ⟨left, is, held⟩ := mem_redactEntries member
    rcases is with rfl | rfl
    · exact .inside held reaches
    · rw [redactValue] at held
      split at held
      · exact .inside held reaches
      · rw [outcome_onBoth] at held
        exact .inside held (ih leaf (depth + 1) names)

/-- The entries of a record that are logged. -/
theorem winstonRedactFormatter_entries {info : List (String × LogValue Primitive)}
    (wellFormed : (LogValue.object kind readOnly info).WellFormed) :
    winstonRedactFormatter stack isSecret (.object kind readOnly info) =
      if stack ≤ 0 then info else outcome (redactEntries stack isSecret 1 readOnly info) := by
  rw [winstonRedactFormatter_eq wellFormed, redactValue]
  split
  · rfl
  · rw [outcome_onBoth]
    rfl

/-- What is left of an object is an object. -/
theorem outcome_object (entries : List (String × LogValue Primitive)) :
    outcome (redactValue stack isSecret depth key isReadOnly (.object kind readOnly entries)) =
      .object kind readOnly
        (outcome (redactValue stack isSecret depth key isReadOnly (.object kind readOnly entries))).entries := by
  rw [redactValue]
  split
  · rfl
  · rw [outcome_onBoth]
    rfl

theorem AlikeEntries.keys_eq {first second : List (String × LogValue Primitive)} :
    AlikeEntries isSecret first second → second.map Prod.fst = first.map Prod.fst
  | .nil => rfl
  | .cons _ rest => by rw [List.map_cons, List.map_cons, AlikeEntries.keys_eq rest]

mutual

theorem Alike.wellFormed {key : String} {first second : LogValue Primitive} :
    Alike isSecret key first second → first.WellFormed → second.WellFormed
  | .same _ _, wellFormed => wellFormed
  | .secret _ _ _, _ => trivial
  | .buffer _ _ _, _ => trivial
  | .object _ _ _ entries, wellFormed =>
    ⟨entries.keys_eq.symm ▸ wellFormed.1, AlikeEntries.wellFormed entries wellFormed.2⟩

theorem AlikeEntries.wellFormed {first second : List (String × LogValue Primitive)} :
    AlikeEntries isSecret first second → EntriesWellFormed first → EntriesWellFormed second
  | .nil, _ => trivial
  | .cons here rest, wellFormed => ⟨Alike.wellFormed here wellFormed.1, AlikeEntries.wellFormed rest wellFormed.2⟩

end

/-- Records that are alike but for buffers and secrets are logged alike, and what is no secret is logged
as it is, exactly when the walk over the record meets no buffer and no string under a secret key at the
first obstacle or behind it. -/
theorem winstonRedactFormatter_hides_iff (stack : ℕ) (isSecret : IsSecret) (unnamed : isSecret.key "" = false)
    {info : List (String × LogValue Primitive)} (wellFormed : (LogValue.object kind readOnly info).WellFormed) :
    ((∀ second, AlikeEntries isSecret info second →
        winstonRedactFormatter stack isSecret (.object kind readOnly second) =
          winstonRedactFormatter stack isSecret (.object kind readOnly info)) ∧
      ∀ path key value, Reaches info path key value → OpenLeaf isSecret key value →
        Reaches (winstonRedactFormatter stack isSecret (.object kind readOnly info)) path key value) ↔
      BareFromObstacle stack isSecret ((LogValue.object kind readOnly info).places 0 "" false) := by
  have alikeWellFormed : ∀ second, AlikeEntries isSecret info second →
      (LogValue.object kind readOnly second).WellFormed := fun second alike =>
    (Alike.object "" kind readOnly alike).wellFormed wellFormed
  constructor
  · rintro ⟨hidden, -⟩
    by_contra held
    obtain ⟨second, alike, differ⟩ := exists_shown 0 "" false _ held
    apply differ
    cases alike with
    | same => rfl
    | object _ _ _ entries =>
      have logged := hidden _ entries
      rw [winstonRedactFormatter_eq wellFormed, winstonRedactFormatter_eq (alikeWellFormed _ entries)] at logged
      calc
        _ = LogValue.object kind readOnly _ := outcome_object _
        _ = LogValue.object kind readOnly _ := congrArg _ logged
        _ = _ := (outcome_object _).symm
  · intro bare
    constructor
    · intro second alike
      rw [winstonRedactFormatter_eq wellFormed, winstonRedactFormatter_eq (alikeWellFormed second alike),
        (Alike.object "" kind readOnly alike).redactValue_eq unnamed 0 false bare]
    · intro path key value reaches leaf
      rw [winstonRedactFormatter_entries wellFormed]
      split
      · exact reaches
      · exact reaches.redacted leaf 1 readOnly

/-- A sign-in with credentials that are frozen or not. -/
def signIn (readOnly : List String) (password : String) : List (String × LogValue ℕ) :=
  [("message", .string "signed in"), ("credentials", .object .plain readOnly [("password", .string password)])]

def namedPassword : IsSecret := ⟨fun key => key = "password", fun _ => false⟩

private theorem alike_signIn (readOnly : List String) (first second : String) :
    AlikeEntries namedPassword (signIn readOnly first) (signIn readOnly second) :=
  .cons (.same _ _) (.cons (.object _ _ _ (.cons (.secret _ _ (by decide)) .nil)) .nil)

theorem wellFormed_signIn (readOnly : List String) (password : String) :
    (LogValue.object .plain [] (signIn readOnly password)).WellFormed := by
  simp [signIn, LogValue.WellFormed, EntriesWellFormed]

/-- The replacement of a frozen password throws, and the record is logged with it. -/
theorem frozen_secret_shown : ¬ ∀ (stack : ℕ) (isSecret : IsSecret) (first second : List (String × LogValue ℕ)),
    10000 ≤ stack → isSecret.key "" = false → (LogValue.object .plain [] first).WellFormed →
    (LogValue.object .plain [] second).WellFormed → AlikeEntries isSecret first second →
      winstonRedactFormatter stack isSecret (.object .plain [] first) =
        winstonRedactFormatter stack isSecret (.object .plain [] second) := by
  intro hidden
  have logged := hidden 10000 namedPassword _ _ le_rfl (by decide) (wellFormed_signIn ["password"] "first")
    (wellFormed_signIn ["password"] "second") (alike_signIn ["password"] "first" "second")
  have shown : ∀ password, winstonRedactFormatter 10000 namedPassword (.object .plain [] (signIn ["password"] password)) =
      signIn ["password"] password := by
    intro password
    rw [winstonRedactFormatter_entries (wellFormed_signIn _ _), if_neg (by decide)]
    simp [signIn, redactEntries, redactValue, namedPassword, onBoth, outcome]
  rw [shown, shown] at logged
  simp [signIn] at logged

/-- A password below a number of objects. -/
def nested (password : String) : ℕ → List (String × LogValue ℕ)
  | 0 => [("password", .string password)]
  | depth + 1 => [("inner", .object .plain [] (nested password depth))]

private theorem redactEntries_nested {levels : ℕ} (password : String) (fits : depth ≤ stack) (deep : stack < depth + levels) :
    outcome (redactEntries stack isSecret depth [] (nested password levels)) = nested password levels := by
  induction levels generalizing depth with
  | zero => omega
  | succ levels ih =>
    rw [nested, outcome_redactEntries_cons, redactValue]
    by_cases full : stack ≤ depth
    · rw [if_pos full]
      rfl
    · rw [if_neg full, outcome_onBoth, ih (by omega) (by omega)]
      simp [redactEntries, outcome]

theorem alike_nested (first second : String) : (levels : ℕ) →
    AlikeEntries namedPassword (nested first levels) (nested second levels)
  | 0 => .cons (.secret _ _ (by decide)) .nil
  | levels + 1 => .cons (.object _ _ _ (alike_nested first second levels)) .nil

theorem wellFormed_nested (password : String) (levels : ℕ) :
    (LogValue.object .plain [] (nested password levels)).WellFormed := by
  induction levels with
  | zero => simp [nested, LogValue.WellFormed, EntriesWellFormed]
  | succ levels ih => exact ⟨by simp [nested], ih, trivial⟩

private theorem nested_injective {first second : String} {levels : ℕ}
    (same : nested first levels = nested second levels) : first = second := by
  induction levels with
  | zero => simpa [nested] using same
  | succ levels ih => exact ih (by simpa [nested] using same)

/-- Whatever room the stack has, a password can lie too deep. -/
theorem deep_secret_shown (stack : ℕ) : ∃ first second : List (String × LogValue ℕ),
    (LogValue.object .plain [] first).WellFormed ∧ (LogValue.object .plain [] second).WellFormed ∧
      AlikeEntries namedPassword first second ∧
      winstonRedactFormatter stack namedPassword (.object .plain [] first) ≠
        winstonRedactFormatter stack namedPassword (.object .plain [] second) := by
  have shown : ∀ password, winstonRedactFormatter stack namedPassword
      (.object .plain [] (nested password stack)) = nested password stack := by
    intro password
    rw [winstonRedactFormatter_entries (wellFormed_nested password stack)]
    split
    · rfl
    · exact redactEntries_nested password (by omega) (by omega)
  refine ⟨nested "first" stack, nested "second" stack, wellFormed_nested _ _, wellFormed_nested _ _,
    alike_nested _ _ stack, ?_⟩
  rw [shown, shown]
  intro same
  exact absurd (nested_injective same) (by decide)

theorem winstonRedactFormatter_hides_iff_signIn :
    (∀ second, AlikeEntries namedPassword (signIn [] "first") second →
        winstonRedactFormatter 10000 namedPassword (.object .plain [] second) =
          winstonRedactFormatter 10000 namedPassword (.object .plain [] (signIn [] "first"))) ∧
      ∀ path key value, Reaches (signIn [] "first") path key value → OpenLeaf namedPassword key value →
        Reaches (winstonRedactFormatter 10000 namedPassword (.object .plain [] (signIn [] "first"))) path key value := by
  refine (winstonRedactFormatter_hides_iff 10000 namedPassword (by decide) (wellFormed_signIn [] "first")).mpr ?_
  apply bareFromObstacle_clear
  simp [Clear, signIn, LogValue.places, entriesPlaces, Place.isObstacle]

end PriceFeed.Infrastructure
