import Mathlib.Data.List.Basic

/-! The own properties of an object as they are listed: array indices in ascending order,
then the other keys in the order in which they came. -/

namespace PriceFeed.Library

/-- The number that a key spells in decimal without leading zeros, where an array can have it. -/
def arrayIndex? (key : String) : Option ℕ :=
  let text := key.toList
  let value : ℕ := text.foldl (fun value digit => 10 * value + (digit.toNat - 48)) 0
  if !text.isEmpty && text.all Char.isDigit && (text.head? != some '0' || text.length == 1) &&
      decide (value < 4294967295) then
    some value
  else none

def precedes (key other : String) : Bool :=
  match arrayIndex? key, arrayIndex? other with
  | some first, some second => first < second
  | some _, none => true
  | none, _ => false

variable {Value Other : Type*}

/-- Overwrite in place, or put a new key where it is listed. -/
def setProperty (key : String) (value : Value) : List (String × Value) → List (String × Value)
  | [] => [(key, value)]
  | property :: rest =>
    if property.1 = key then (key, value) :: rest
    else if precedes key property.1 then (key, value) :: property :: rest
    else property :: setProperty key value rest

/-- The properties that come from assigning to one key after another. -/
def assignAll (properties assigned : List (String × Value)) : List (String × Value) :=
  assigned.foldl (fun properties property => setProperty property.1 property.2 properties) properties

/-- No key twice, and none after one that it precedes. -/
def Listed (properties : List (String × Value)) : Prop :=
  properties.Pairwise fun earlier later => earlier.1 ≠ later.1 ∧ precedes later.1 earlier.1 = false

instance (properties : List (String × Value)) : Decidable (Listed properties) :=
  inferInstanceAs (Decidable (List.Pairwise _ properties))

variable {key : String} {value : Value} {properties assigned : List (String × Value)}

theorem setProperty_append
    (fresh : ∀ property ∈ properties, property.1 ≠ key ∧ precedes key property.1 = false) :
    setProperty key value properties = properties ++ [(key, value)] := by
  induction properties with
  | nil => rfl
  | cons property rest ih =>
    obtain ⟨different, after⟩ := fresh property List.mem_cons_self
    rw [setProperty, if_neg different, after, if_neg Bool.false_ne_true, List.cons_append,
      ih fun other member => fresh other (List.mem_cons_of_mem _ member)]

theorem assignAll_of_listed (listed : Listed (properties ++ assigned)) :
    assignAll properties assigned = properties ++ assigned := by
  induction assigned generalizing properties with
  | nil => rw [List.append_nil]; rfl
  | cons property rest ih =>
    have apart := (List.pairwise_append.mp listed).2.2
    have appended : setProperty property.1 property.2 properties = properties ++ [property] :=
      setProperty_append fun other member => apart other member property List.mem_cons_self
    rw [List.append_cons] at listed ⊢
    rw [← ih listed, ← appended]
    rfl

/-- Properties that are listed as they are to be stay so when they are assigned again. -/
theorem assignAll_listed (listed : Listed assigned) : assignAll [] assigned = assigned :=
  assignAll_of_listed listed

/-- Assigning to a key that is no array index, before or after other properties are mapped or dropped. -/
theorem filterMap_setProperty {shown : Value → Option Other} {written : Other} (named : arrayIndex? key = none)
    (kept : ∀ held, (key, held) ∈ properties → (shown held).isSome) (shows : shown value = some written) :
    (setProperty key value properties).filterMap (fun property => (shown property.2).map (property.1, ·)) =
      setProperty key written (properties.filterMap fun property => (shown property.2).map (property.1, ·)) := by
  have last : ∀ other, precedes key other = false := by
    intro other
    rw [precedes, named]
  induction properties with
  | nil => simp [setProperty, shows]
  | cons property rest ih =>
    have later := ih fun held member => kept held (List.mem_cons_of_mem _ member)
    obtain ⟨name, held⟩ := property
    by_cases same : name = key
    · subst same
      obtain ⟨replaced, shown_held⟩ := Option.isSome_iff_exists.mp (kept held List.mem_cons_self)
      simp [setProperty, shows, shown_held]
    · rw [setProperty, if_neg same, last, if_neg Bool.false_ne_true, List.filterMap_cons, later, List.filterMap_cons]
      cases shown_held : shown held with
      | none => rfl
      | some image =>
        simp only [Option.map_some]
        rw [setProperty, if_neg same, last, if_neg Bool.false_ne_true]

end PriceFeed.Library
