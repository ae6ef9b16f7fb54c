import Mathlib.Data.List.Forall2
import Mathlib.Tactic.Common

/-! `winstonRedactFormatter`: `traverseObject` replaces buffers and secrets of a log record
in place, walking to each of them from the root, until it ends or throws. -/

namespace PriceFeed.Infrastructure

inductive ObjectKind where
  | plain
  | array
  deriving DecidableEq, Repr

/-- A value of a log record as a tree: no object is shared. The entries of an object are its
own enumerable properties, for an array named by the indices; some may be read-only, and all
of a frozen object are. -/
inductive LogValue (Primitive : Type) where
  | primitive (value : Primitive)
  | string (text : String)
  | buffer (bytes : List UInt8)
  | object (kind : ObjectKind) (readOnly : List String) (entries : List (String × LogValue Primitive))

/-- What the formatter asks of the package `is-secret`. -/
structure IsSecret where
  key : String → Bool
  value : String → Bool

variable {Primitive : Type}

/-- Nothing is returned for a value that stays. -/
def recordFormatter (isSecret : IsSecret) (key : String) : LogValue Primitive → Option (LogValue Primitive)
  | .buffer _ => some (.string "[BUFFER]")
  | .string text =>
    if key ≠ "" ∧ (isSecret.key key ∨ isSecret.value text) then some (.string "[SECRET]") else none
  | _ => none

/-- Assign to a property that is there. -/
def setEntry (key : String) (change : LogValue Primitive → LogValue Primitive) :
    List (String × LogValue Primitive) → List (String × LogValue Primitive)
  | [] => []
  | entry :: rest =>
    if entry.1 = key then (key, change entry.2) :: rest else entry :: setEntry key change rest

namespace LogValue

def entries : LogValue Primitive → List (String × LogValue Primitive)
  | .object _ _ entries => entries
  | _ => []

def readOnly : LogValue Primitive → List String
  | .object _ readOnly _ => readOnly
  | _ => []

/-- The value at the end of a path. -/
def valueAt : LogValue Primitive → List String → Option (LogValue Primitive)
  | value, [] => some value
  | value, key :: path =>
    (value.entries.find? fun entry => entry.1 = key).bind fun entry => entry.2.valueAt path

/-- The assignment at the end of a path, in the object that was reached there. -/
def assign : LogValue Primitive → List String → LogValue Primitive → LogValue Primitive
  | _, [], newValue => newValue
  | .object kind readOnly entries, key :: path, newValue =>
    .object kind readOnly (setEntry key (fun child => child.assign path newValue) entries)
  | value, _ :: _, _ => value

end LogValue

/-- The assignment to a read-only property throws. An exception leaves the object as it has been
changed so far. -/
def updateValue (obj : LogValue Primitive) (path : List String) (key : String)
    (newValue : LogValue Primitive) : Except (LogValue Primitive) (LogValue Primitive) :=
  match obj.valueAt path with
  | some target =>
    if key ∈ target.readOnly then .error obj else .ok (obj.assign (path ++ [key]) newValue)
  | none => .error obj

/-- The body of the loop over the keys of the object at a path, with the recursive call. A buffer
does not stay, so that none is gone into. -/
def visitKey (callback : String → LogValue Primitive → Option (LogValue Primitive))
    (traverse : LogValue Primitive → List String → Except (LogValue Primitive) (LogValue Primitive)) (path : List String)
    (obj : LogValue Primitive) (key : String) : Except (LogValue Primitive) (LogValue Primitive) :=
  match obj.valueAt (path ++ [key]) with
  | none => .error obj
  | some value => do
    let updated ← match callback key value with
      | some result => updateValue obj path key result
      | none => .ok obj
    match updated.valueAt (path ++ [key]) with
    | some (.object _ _ _) => traverse updated (path ++ [key])
    | _ => .ok updated

/-- `traverseRecursive` for the object at a path, which is kept in `obj`. The stack has room for
a number of calls inside each other, and one more throws. -/
def traverseRecursive (callback : String → LogValue Primitive → Option (LogValue Primitive)) :
    ℕ → LogValue Primitive → List String → Except (LogValue Primitive) (LogValue Primitive)
  | 0, obj, _ => .error obj
  | stack + 1, obj, path =>
    match obj.valueAt path with
    | none => .error obj
    | some currentObject =>
      (currentObject.entries.map Prod.fst).foldlM
        (visitKey callback (traverseRecursive callback stack) path) obj

def traverseObject (stack : ℕ) (obj : LogValue Primitive)
    (callback : String → LogValue Primitive → Option (LogValue Primitive)) : Except (LogValue Primitive) (LogValue Primitive) :=
  traverseRecursive callback stack obj []

/-- `{ ...first, ...second }`. -/
def spread (first second : List (String × LogValue Primitive)) : List (String × LogValue Primitive) :=
  second.foldl (fun entries entry =>
    if entry.1 ∈ entries.map Prod.fst then setEntry entry.1 (fun _ => entry.2) entries
    else entries ++ [entry]) first

/-- The entries of the record that goes on to the transports. `redacted` is `info` itself, changed
in place, or empty after an exception, which does not take back what has been changed of `info`. -/
def winstonRedactFormatter (stack : ℕ) (isSecret : IsSecret) (info : LogValue Primitive) :
    List (String × LogValue Primitive) :=
  match traverseObject stack info (recordFormatter isSecret) with
  | .ok redacted => spread redacted.entries redacted.entries
  | .error info => spread info.entries []

/-- The same change of a result, thrown or not. -/
def onBoth (change : First → Second) : Except First First → Except Second Second
  | .ok result => .ok (change result)
  | .error result => .error (change result)

section Redaction

variable (stack : ℕ) (isSecret : IsSecret)

mutual

/-- What becomes of the value under a key, read-only or not, which is met in the call of a depth. -/
def redactValue (depth : ℕ) (key : String) (isReadOnly : Bool) : LogValue Primitive → Except (LogValue Primitive) (LogValue Primitive)
  | .object kind readOnly entries =>
    if stack ≤ depth then .error (.object kind readOnly entries)
    else onBoth (.object kind readOnly) (redactEntries (depth + 1) readOnly entries)
  | .string text =>
    if key ≠ "" ∧ (isSecret.key key ∨ isSecret.value text) then
      if isReadOnly then .error (.string text) else .ok (.string "[SECRET]")
    else .ok (.string text)
  | .buffer bytes => if isReadOnly then .error (.buffer bytes) else .ok (.string "[BUFFER]")
  | .primitive value => .ok (.primitive value)

/-- What comes after an exception stays as it was. -/
def redactEntries (depth : ℕ) (readOnly : List String) : List (String × LogValue Primitive) →
    Except (List (String × LogValue Primitive)) (List (String × LogValue Primitive))
  | [] => .ok []
  | (key, value) :: rest =>
    match redactValue depth key (decide (key ∈ readOnly)) value with
    | .ok redacted => onBoth ((key, redacted) :: ·) (redactEntries depth readOnly rest)
    | .error left => .error ((key, left) :: rest)

end

mutual

/-- No object has a key twice. -/
def LogValue.WellFormed : LogValue Primitive → Prop
  | .object _ _ entries => (entries.map Prod.fst).Nodup ∧ EntriesWellFormed entries
  | _ => True

def EntriesWellFormed : List (String × LogValue Primitive) → Prop
  | [] => True
  | (_, value) :: rest => value.WellFormed ∧ EntriesWellFormed rest

end

end Redaction

variable {stack depth : ℕ} {isSecret : IsSecret} {path : List String}
  {plug : LogValue Primitive → LogValue Primitive} {key : String} {kind : ObjectKind} {readOnly : List String}
  {front rest : List (String × LogValue Primitive)}

theorem onBoth_onBoth {Third : Type} (change : First → Second) (next : Second → Third)
    (result : Except First First) : onBoth next (onBoth change result) = onBoth (next ∘ change) result := by
  cases result <;> rfl

private theorem find?_fresh (fresh : key ∉ front.map Prod.fst) (value : LogValue Primitive) :
    (front ++ (key, value) :: rest).find? (fun entry => entry.1 = key) = some (key, value) := by
  have none : front.find? (fun entry => entry.1 = key) = none := by
    rw [List.find?_eq_none]
    intro entry member same
    exact fresh (List.mem_map.mpr ⟨entry, member, of_decide_eq_true same⟩)
  rw [List.find?_append, none, List.find?_cons_of_pos (by simp)]
  rfl

theorem setEntry_fresh (fresh : key ∉ front.map Prod.fst) (value : LogValue Primitive)
    (change : LogValue Primitive → LogValue Primitive) :
    setEntry key change (front ++ (key, value) :: rest) = front ++ (key, change value) :: rest := by
  induction front with
  | nil => simp [setEntry]
  | cons entry front ih =>
    obtain ⟨differs, fresh⟩ := not_or.mp (mt List.mem_cons.mpr fresh)
    rw [List.cons_append, setEntry, if_neg (Ne.symm differs), ih fresh, List.cons_append]

/-- The path leads through the surroundings `plug` to the value that is put in there. -/
structure Focus (path : List String) (plug : LogValue Primitive → LogValue Primitive) : Prop where
  valueAt : ∀ value rest, (plug value).valueAt (path ++ rest) = value.valueAt rest
  assign : ∀ value rest newValue,
    (plug value).assign (path ++ rest) newValue = plug (value.assign rest newValue)

private theorem focus_root : Focus [] (id : LogValue Primitive → LogValue Primitive) :=
  ⟨fun _ _ => rfl, fun _ _ _ => rfl⟩

theorem Focus.inside (focus : Focus path plug) (fresh : key ∉ front.map Prod.fst) :
    Focus (path ++ [key]) fun value => plug (.object kind readOnly (front ++ (key, value) :: rest)) := by
  constructor
  · intro value further
    rw [List.append_assoc, focus.valueAt, List.singleton_append, LogValue.valueAt, LogValue.entries,
      find?_fresh fresh]
    rfl
  · intro value further newValue
    rw [List.append_assoc, focus.assign, List.singleton_append, LogValue.assign, setEntry_fresh fresh]

theorem Focus.here (focus : Focus path plug) (value : LogValue Primitive) :
    (plug value).valueAt path = some value := by
  have found := focus.valueAt value []
  rw [List.append_nil] at found
  exact found

theorem Focus.replaced (focus : Focus path plug) (value newValue : LogValue Primitive) :
    (plug value).assign path newValue = plug newValue := by
  have updated := focus.assign value [] newValue
  rw [List.append_nil] at updated
  rw [updated, LogValue.assign]

private theorem visitKey_redacts {traverse : LogValue Primitive → List String → Except (LogValue Primitive) (LogValue Primitive)}
    {value target : LogValue Primitive} (focus : Focus (path ++ [key]) plug)
    (within : (plug value).valueAt path = some target)
    (inner : ∀ kind readOnly entries, value = .object kind readOnly entries →
      traverse (plug value) (path ++ [key]) =
        onBoth plug (redactValue stack isSecret depth key (decide (key ∈ target.readOnly)) value)) :
    visitKey (recordFormatter isSecret) traverse path (plug value) key =
      onBoth plug (redactValue stack isSecret depth key (decide (key ∈ target.readOnly)) value) := by
  simp only [visitKey, focus.here]
  cases value with
  | primitive value =>
    simp only [recordFormatter, redactValue, bind, Except.bind, focus.here, onBoth]
  | string text =>
    by_cases secret : key ≠ "" ∧ (isSecret.key key ∨ isSecret.value text)
    · by_cases fixed : key ∈ target.readOnly
      · simp [recordFormatter, redactValue, secret, updateValue, within, fixed, bind, Except.bind, onBoth]
      · simp [recordFormatter, redactValue, secret, updateValue, within, fixed, bind, Except.bind, onBoth,
          focus.replaced, focus.here]
    · simp only [recordFormatter, redactValue, if_neg secret, bind, Except.bind, focus.here, onBoth]
  | buffer bytes =>
    by_cases fixed : key ∈ target.readOnly
    · simp [recordFormatter, redactValue, updateValue, within, fixed, bind, Except.bind, onBoth]
    · simp [recordFormatter, redactValue, updateValue, within, fixed, bind, Except.bind, onBoth,
        focus.replaced, focus.here]
  | object kind readOnly entries =>
    simp only [recordFormatter, bind, Except.bind, focus.here]
    exact inner kind readOnly entries rfl

private theorem foldlM_visitKey {traverse : LogValue Primitive → List String → Except (LogValue Primitive) (LogValue Primitive)}
    (focus : Focus path plug)
    (inner : ∀ path plug key isReadOnly kind readOnly entries, Focus path plug →
      (∃ key, (key, .object kind readOnly entries) ∈ rest) →
        traverse (plug (.object kind readOnly entries)) path =
          onBoth plug (redactValue stack isSecret depth key isReadOnly (.object kind readOnly entries)))
    (distinct : ((front ++ rest).map Prod.fst).Nodup) :
    (rest.map Prod.fst).foldlM (visitKey (recordFormatter isSecret) traverse path)
        (plug (.object kind readOnly (front ++ rest))) =
      onBoth (fun entries => plug (.object kind readOnly (front ++ entries)))
        (redactEntries stack isSecret depth readOnly rest) := by
  induction rest generalizing front with
  | nil => rfl
  | cons entry rest ih =>
    obtain ⟨key, value⟩ := entry
    have fresh : key ∉ front.map Prod.fst := by
      rw [List.map_append, List.nodup_append] at distinct
      intro member
      exact distinct.2.2 key member key List.mem_cons_self rfl
    have here : Focus (path ++ [key]) fun value => plug (.object kind readOnly (front ++ (key, value) :: rest)) :=
      focus.inside fresh
    have visited : visitKey (recordFormatter isSecret) traverse path
        (plug (.object kind readOnly (front ++ (key, value) :: rest))) key =
        onBoth (fun value => plug (.object kind readOnly (front ++ (key, value) :: rest)))
          (redactValue stack isSecret depth key (decide (key ∈ readOnly)) value) := by
      refine visitKey_redacts here (focus.here _) fun inside names entries same => ?_
      subst same
      exact inner _ _ key _ inside names entries here ⟨key, List.mem_cons_self⟩
    rw [List.map_cons, List.foldlM_cons, visited, redactEntries]
    cases redactValue stack isSecret depth key (decide (key ∈ readOnly)) value with
    | error left => rfl
    | ok redacted =>
      have moved : ((front ++ [(key, redacted)] ++ rest).map Prod.fst).Nodup := by
        simpa using distinct
      have later := ih (fun path plug key isReadOnly kind readOnly entries focus member =>
        inner path plug key isReadOnly kind readOnly entries focus
          (member.imp fun _ held => List.mem_cons_of_mem _ held)) moved
      rw [onBoth_onBoth]
      simpa [bind, Except.bind, onBoth, Function.comp_def] using later

theorem EntriesWellFormed.value {value : LogValue Primitive} {entries : List (String × LogValue Primitive)}
    (wellFormed : EntriesWellFormed entries) (member : (key, value) ∈ entries) : value.WellFormed := by
  induction entries with
  | nil => cases member
  | cons entry rest ih =>
    obtain ⟨other, first⟩ := entry
    obtain ⟨here, others⟩ := wellFormed
    rcases List.mem_cons.mp member with same | later
    · cases same
      exact here
    · exact ih others later

/-- The object at a path is redacted in place, as far as the rest of the stack lets it. -/
private theorem traverseRecursive_redacts {room : ℕ} {isReadOnly : Bool} {entries : List (String × LogValue Primitive)}
    (focus : Focus path plug) (running : stack = depth + room)
    (wellFormed : (LogValue.object kind readOnly entries).WellFormed) :
    traverseRecursive (recordFormatter isSecret) room (plug (.object kind readOnly entries)) path =
      onBoth plug (redactValue stack isSecret depth key isReadOnly (.object kind readOnly entries)) := by
  induction room generalizing path plug key isReadOnly kind readOnly entries depth with
  | zero =>
    have full : stack ≤ depth := by omega
    rw [redactValue, if_pos full, traverseRecursive, onBoth]
  | succ room ih =>
    have fits : ¬ stack ≤ depth := by omega
    have distinct : (([] ++ entries : List (String × LogValue Primitive)).map Prod.fst).Nodup := wellFormed.1
    rw [redactValue, if_neg fits, onBoth_onBoth, traverseRecursive, focus.here]
    refine foldlM_visitKey focus (fun path plug key isReadOnly kind names inner focus held => ?_) distinct
    obtain ⟨own, member⟩ := held
    exact ih focus (by omega) (wellFormed.2.value member)

private theorem setEntry_self {entries : List (String × LogValue Primitive)} {value : LogValue Primitive}
    (distinct : (entries.map Prod.fst).Nodup) (member : (key, value) ∈ entries) :
    setEntry key (fun _ => value) entries = entries := by
  obtain ⟨front, rest, rfl⟩ := List.append_of_mem member
  apply setEntry_fresh
  rw [List.map_append, List.nodup_append] at distinct
  intro earlier
  exact distinct.2.2 key earlier key List.mem_cons_self rfl

private theorem spread_self {entries : List (String × LogValue Primitive)} (distinct : (entries.map Prod.fst).Nodup) :
    spread entries entries = entries := by
  have stays : ∀ later, later ⊆ entries → spread entries later = entries := by
    intro later
    induction later with
    | nil => exact fun _ => rfl
    | cons entry rest ih =>
      intro part
      obtain ⟨here, others⟩ := List.cons_subset.mp part
      have held : entry.1 ∈ entries.map Prod.fst := List.mem_map_of_mem here
      rw [spread, List.foldl_cons, if_pos held, setEntry_self distinct here]
      exact ih others
  exact stays entries (List.Subset.refl _)

/-- What is there at the end, thrown or not. -/
def outcome : Except Value Value → Value
  | .ok result => result
  | .error result => result

@[simp] theorem outcome_onBoth (change : First → Second) (result : Except First First) :
    outcome (onBoth change result) = change (outcome result) := by
  cases result <;> rfl

theorem outcome_redactEntries_cons (value : LogValue Primitive) :
    outcome (redactEntries stack isSecret depth readOnly ((key, value) :: rest)) =
      (key, outcome (redactValue stack isSecret depth key (decide (key ∈ readOnly)) value)) ::
        if (redactValue stack isSecret depth key (decide (key ∈ readOnly)) value).isOk then
          outcome (redactEntries stack isSecret depth readOnly rest)
        else rest := by
  rw [redactEntries]
  cases redactValue stack isSecret depth key (decide (key ∈ readOnly)) value with
  | ok redacted => exact outcome_onBoth _ _
  | error left => rfl

private theorem keys_redactEntries (entries : List (String × LogValue Primitive)) :
    (outcome (redactEntries stack isSecret depth readOnly entries)).map Prod.fst = entries.map Prod.fst := by
  induction entries with
  | nil => rfl
  | cons entry rest ih =>
    obtain ⟨key, value⟩ := entry
    rw [outcome_redactEntries_cons, List.map_cons, List.map_cons]
    split
    · rw [ih]
    · rfl

/-- The formatter gives what the walk over the record has left there, also if it has thrown. -/
theorem winstonRedactFormatter_eq {info : List (String × LogValue Primitive)}
    (wellFormed : (LogValue.object kind readOnly info).WellFormed) :
    winstonRedactFormatter stack isSecret (.object kind readOnly info) =
      (outcome (redactValue stack isSecret 0 "" false (.object kind readOnly info))).entries := by
  have redacted : traverseObject stack (.object kind readOnly info) (recordFormatter isSecret) =
      redactValue stack isSecret 0 "" false (.object kind readOnly info) := by
    rw [traverseObject]
    have walked : traverseRecursive (recordFormatter isSecret) stack (id (.object kind readOnly info)) [] =
        onBoth id (redactValue stack isSecret 0 "" false (.object kind readOnly info)) :=
      traverseRecursive_redacts focus_root (Nat.zero_add stack).symm wellFormed
    rw [id] at walked
    rw [walked]
    cases redactValue stack isSecret 0 "" false (.object kind readOnly info) <;> rfl
  rw [winstonRedactFormatter, redacted, redactValue]
  by_cases full : stack ≤ 0
  · rw [if_pos full]
    rfl
  · rw [if_neg full]
    have keys : (outcome (redactEntries stack isSecret (0 + 1) readOnly info)).map Prod.fst = info.map Prod.fst :=
      keys_redactEntries info
    cases walked : redactEntries stack isSecret (0 + 1) readOnly info with
    | error left => rfl
    | ok entries =>
      rw [walked] at keys
      have distinct : (entries.map Prod.fst).Nodup := keys ▸ wellFormed.1
      exact spread_self distinct

end PriceFeed.Infrastructure
