import PriceFeed.Library.Json
import PriceFeed.Library.Runs

/-! Responses on their way out: kept as a text in the cache, and rendered with a status. -/

namespace PriceFeed.UseCases

open PriceFeed.Library

/-- A value of a response. A date serialises itself, and to nothing where it is not valid. -/
inductive ResponseValue (Number : Type) where
  | undefined
  | null
  | bool (value : Bool)
  | number (value : Number)
  | notFinite
  | string (text : String)
  | date (isoString : Option String)
  | array (items : List (ResponseValue Number))
  | object (properties : List (String × ResponseValue Number))

namespace ResponseValue

variable {Number : Type}

mutual

/-- What `JSON.stringify` writes of a value, and nothing of what it leaves out. -/
def toJson : ResponseValue Number → Option (Json Number)
  | .undefined => none
  | .null => some .null
  | .bool value => some (.bool value)
  | .number value => some (.number value)
  | .notFinite => some .null
  | .string text => some (.string text)
  | .date none => some .null
  | .date (some isoString) => some (.string isoString)
  | .array items => some (.array (itemsToJson items))
  | .object properties => some (.object (propertiesToJson properties))

def itemsToJson : List (ResponseValue Number) → List (Json Number)
  | [] => []
  | item :: items => (toJson item).getD .null :: itemsToJson items

def propertiesToJson : List (String × ResponseValue Number) → List (String × Json Number)
  | [] => []
  | (key, value) :: properties =>
    match toJson value with
    | none => propertiesToJson properties
    | some written => (key, written) :: propertiesToJson properties

end

mutual

/-- The value that `JSON.parse` makes. -/
def ofJson : Json Number → ResponseValue Number
  | .null => .null
  | .bool value => .bool value
  | .number value => .number value
  | .string text => .string text
  | .array items => .array (itemsOfJson items)
  | .object properties => .object (propertiesOfJson properties)

def itemsOfJson : List (Json Number) → List (ResponseValue Number)
  | [] => []
  | item :: items => ofJson item :: itemsOfJson items

def propertiesOfJson : List (String × Json Number) → List (String × ResponseValue Number)
  | [] => []
  | (key, value) :: properties => (key, ofJson value) :: propertiesOfJson properties

end

mutual

/-- Every object in the value lists its properties as objects do. -/
def Canonical : ResponseValue Number → Prop
  | .array items => CanonicalItems items
  | .object properties => Listed properties ∧ CanonicalProperties properties
  | _ => True

def CanonicalItems : List (ResponseValue Number) → Prop
  | [] => True
  | item :: items => item.Canonical ∧ CanonicalItems items

def CanonicalProperties : List (String × ResponseValue Number) → Prop
  | [] => True
  | (_, value) :: properties => value.Canonical ∧ CanonicalProperties properties

end

end ResponseValue

/-- The own properties of the object that a use case answers with. -/
abbrev ResponseData (Number : Type) := List (String × ResponseValue Number)

section

variable {Number : Type} (format : NumberFormat Number)

/-- `responseData.status = 1`, and the body that is sent then. -/
def renderPromiseAsJson (one : Number) (responseData : ResponseData Number) : List Char :=
  Json.stringify format (.object (ResponseValue.propertiesToJson (setProperty "status" (.number one) responseData)))

/-- What `addToCache` stores. -/
def cacheText (results : ResponseData Number) : List Char :=
  Json.stringify format (.object (ResponseValue.propertiesToJson results))

/-- What `getFromCache` gives for a text, where it is an object. -/
def cachedResults (text : List Char) : Option (ResponseData Number) :=
  match Json.parse format text with
  | some (.object properties) => some (ResponseValue.propertiesOfJson properties)
  | _ => none

/-- One key of the cache, and the bodies that have been sent for its parameters. -/
structure RenderedRequests where
  cached : Option (List Char) := none
  bodies : List (List Char) := []

/-- A request is answered, or fails before or after its results are stored. The key goes when it
expires or is evicted. -/
inductive RenderedEvent where
  | serves
  | fails (stored : Bool)
  | removes

variable (one : Number) (results : ResponseData Number)

/-- `getCachedResult` on its own key, while executions give the results. -/
def RenderedRequests.step (state : RenderedRequests) : RenderedEvent → Option RenderedRequests
  | .serves =>
    match state.cached with
    | some text => (cachedResults format text).map fun cached =>
        { state with bodies := renderPromiseAsJson format one cached :: state.bodies }
    | none => some {
        cached := some (cacheText format results)
        bodies := renderPromiseAsJson format one results :: state.bodies }
  | .fails stored =>
    some { state with cached := if stored then state.cached.or (some (cacheText format results)) else state.cached }
  | .removes => some { state with cached := none }

end

namespace ResponseValue

variable {Number : Type}

theorem propertiesToJson_eq (properties : List (String × ResponseValue Number)) : propertiesToJson properties =
    properties.filterMap fun property => property.2.toJson.map (property.1, ·) := by
  induction properties with
  | nil => rfl
  | cons property properties ih =>
    obtain ⟨key, value⟩ := property
    rw [propertiesToJson, List.filterMap_cons, ih]
    cases value.toJson with
    | none => rfl
    | some written => rfl

mutual

/-- What was read is written as it was. -/
theorem toJson_ofJson : ∀ value : Json Number, (ofJson value).toJson = some value
  | .null => rfl
  | .bool _ => rfl
  | .number _ => rfl
  | .string _ => rfl
  | .array items => congrArg (fun items => some (Json.array items)) (itemsToJson_itemsOfJson items)
  | .object properties =>
    congrArg (fun properties => some (Json.object properties)) (propertiesToJson_propertiesOfJson properties)

theorem itemsToJson_itemsOfJson : ∀ items : List (Json Number), itemsToJson (itemsOfJson items) = items
  | [] => rfl
  | item :: items => by
    rw [itemsOfJson, itemsToJson, toJson_ofJson item, itemsToJson_itemsOfJson items, Option.getD_some]

theorem propertiesToJson_propertiesOfJson : ∀ properties : List (String × Json Number),
    propertiesToJson (propertiesOfJson properties) = properties
  | [] => rfl
  | (key, value) :: properties => by
    rw [propertiesOfJson, propertiesToJson, toJson_ofJson value, propertiesToJson_propertiesOfJson properties]

end

private theorem propertiesOfJson_eq (properties : List (String × Json Number)) :
    propertiesOfJson properties = properties.map fun property => (property.1, ofJson property.2) := by
  induction properties with
  | nil => rfl
  | cons property properties ih => rw [propertiesOfJson, ih, List.map_cons]

private theorem listed_propertiesToJson {properties : List (String × ResponseValue Number)} (listed : Listed properties) :
    Listed (propertiesToJson properties) := by
  rw [propertiesToJson_eq]
  refine List.Pairwise.filterMap _ ?_ listed
  intro earlier later apart written first other second
  obtain ⟨_, _, rfl⟩ := Option.map_eq_some_iff.mp first
  obtain ⟨_, _, rfl⟩ := Option.map_eq_some_iff.mp second
  exact apart

mutual

theorem canonical_toJson : ∀ value : ResponseValue Number, value.Canonical →
    ∀ written ∈ value.toJson, written.Canonical
  | .undefined, _, _, same => by cases same
  | .null, _, _, same => by cases same; trivial
  | .bool _, _, _, same => by cases same; trivial
  | .number _, _, _, same => by cases same; trivial
  | .notFinite, _, _, same => by cases same; trivial
  | .string _, _, _, same => by cases same; trivial
  | .date none, _, _, same => by cases same; trivial
  | .date (some _), _, _, same => by cases same; trivial
  | .array items, canonical, _, same => by
    cases same
    exact canonical_itemsToJson items canonical
  | .object properties, canonical, _, same => by
    cases same
    exact ⟨listed_propertiesToJson canonical.1, canonical_propertiesToJson properties canonical.2⟩

theorem canonical_itemsToJson : ∀ items : List (ResponseValue Number), CanonicalItems items →
    Json.CanonicalItems (itemsToJson items)
  | [], _ => trivial
  | item :: items, canonical => by
    refine ⟨?_, canonical_itemsToJson items canonical.2⟩
    cases shown : item.toJson with
    | none => trivial
    | some written => exact canonical_toJson item canonical.1 written shown

theorem canonical_propertiesToJson : ∀ properties : List (String × ResponseValue Number),
    CanonicalProperties properties → Json.CanonicalProperties (propertiesToJson properties)
  | [], _ => trivial
  | (key, value) :: properties, canonical => by
    have rest := canonical_propertiesToJson properties canonical.2
    rw [propertiesToJson]
    split
    next => exact rest
    next written shown => exact ⟨canonical_toJson value canonical.1 written shown, rest⟩

end

end ResponseValue

section

variable {Number : Type} {format : NumberFormat Number} {one : Number} {results : ResponseData Number}

/-- Objects of a response list their properties as objects do, and a status of its own is written. -/
structure Renderable (results : ResponseData Number) : Prop where
  canonical : (ResponseValue.object results).Canonical
  status : ∀ value, ("status", value) ∈ results → value.toJson.isSome

private theorem cachedResults_cacheText (renderable : Renderable results) :
    cachedResults format (cacheText format results) =
      some (ResponseValue.propertiesOfJson (ResponseValue.propertiesToJson results)) := by
  have canonical : (Json.object (ResponseValue.propertiesToJson results)).Canonical :=
    ResponseValue.canonical_toJson _ renderable.canonical _ rfl
  have parsed : Json.parse format (cacheText format results) = _ := Json.parse_stringify canonical
  rw [cachedResults, parsed]

theorem propertiesToJson_setStatus {data : ResponseData Number}
    (status : ∀ value, ("status", value) ∈ data → value.toJson.isSome) :
    ResponseValue.propertiesToJson (setProperty "status" (.number one) data) =
      setProperty "status" (.number one) (ResponseValue.propertiesToJson data) := by
  rw [ResponseValue.propertiesToJson_eq, ResponseValue.propertiesToJson_eq]
  exact filterMap_setProperty (by decide) status rfl

/-- The results from the cache are sent as those that went there. -/
private theorem renderPromiseAsJson_cached (renderable : Renderable results) :
    renderPromiseAsJson format one (ResponseValue.propertiesOfJson (ResponseValue.propertiesToJson results)) =
      renderPromiseAsJson format one results := by
  have written : ∀ value, ("status", value) ∈
      ResponseValue.propertiesOfJson (ResponseValue.propertiesToJson results) → value.toJson.isSome := by
    intro value member
    rw [ResponseValue.propertiesOfJson_eq] at member
    obtain ⟨property, _, same⟩ := List.mem_map.mp member
    have made : ResponseValue.ofJson property.2 = value := congrArg Prod.snd same
    rw [← made, ResponseValue.toJson_ofJson]
    rfl
  rw [renderPromiseAsJson, renderPromiseAsJson, propertiesToJson_setStatus written,
    propertiesToJson_setStatus renderable.status, ResponseValue.propertiesToJson_propertiesOfJson]

/-- The key holds the text of the results, or nothing, and all bodies are those of an execution. -/
structure RenderedRequests.Alike (format : NumberFormat Number) (one : Number) (results : ResponseData Number)
    (state : RenderedRequests) : Prop where
  cached : ∀ text, state.cached = some text → text = cacheText format results
  bodies : ∀ body ∈ state.bodies, body = renderPromiseAsJson format one results

theorem RenderedRequests.Alike.step {state : RenderedRequests} (renderable : Renderable results)
    (alike : state.Alike format one results) (event : RenderedEvent) :
    ∃ next, state.step format one results event = some next ∧ next.Alike format one results ∧
      (event = .serves → next.bodies = renderPromiseAsJson format one results :: state.bodies) := by
  cases event with
  | serves =>
    cases held : state.cached with
    | none =>
      refine ⟨_, by rw [RenderedRequests.step, held], ⟨?_, ?_⟩, fun _ => rfl⟩
      · rintro text ⟨⟩
        rfl
      · intro body member
        exact (List.mem_cons.mp member).elim id (alike.bodies body)
    | some text =>
      cases alike.cached text held
      refine ⟨{ state with bodies := renderPromiseAsJson format one results :: state.bodies }, ?_, ⟨?_, ?_⟩, fun _ => rfl⟩
      · rw [RenderedRequests.step, held]
        simp only [cachedResults_cacheText renderable, Option.map_some, renderPromiseAsJson_cached renderable]
      · exact alike.cached
      · intro body member
        exact (List.mem_cons.mp member).elim id (alike.bodies body)
  | fails stored =>
    refine ⟨_, rfl, ⟨?_, alike.bodies⟩, fun serves => by cases serves⟩
    intro text held
    cases stored with
    | false => exact alike.cached text held
    | true =>
      cases before : state.cached with
      | none =>
        simp only [before, if_true, Option.none_or, Option.some.injEq] at held
        exact held.symm
      | some kept =>
        simp only [before, if_true, Option.some_or, Option.some.injEq] at held
        exact held ▸ alike.cached kept before
  | removes =>
    refine ⟨_, rfl, ⟨?_, alike.bodies⟩, fun serves => by cases serves⟩
    rintro text ⟨⟩

/-- While executions give the same results, every body is the same text, whether it comes from
the cache or not and whatever happens to the key, and no request fails to read it. -/
theorem bodies_alike {events : List RenderedEvent} {final : RenderedRequests} (renderable : Renderable results)
    (run : Run (RenderedRequests.step format one results) {} events final) :
    (∀ body ∈ final.bodies, body = renderPromiseAsJson format one results) ∧
      ∃ next, final.step format one results .serves = some next ∧
        next.bodies = renderPromiseAsJson format one results :: final.bodies := by
  have initial : RenderedRequests.Alike format one results {} := by
    constructor
    · rintro text ⟨⟩
    · rintro body ⟨⟩
  have alike : final.Alike format one results := by
    refine run.invariant ?_ initial
    intro state event next held taken
    obtain ⟨reached, stepped, later, _⟩ := held.step renderable event
    rw [stepped] at taken
    cases taken
    exact later
  obtain ⟨next, stepped, _, served⟩ := alike.step renderable .serves
  exact ⟨alike.bodies, next, stepped, served rfl⟩

/-- Texts with quotation marks, values that are left out, and keys that are array indices. -/
def aggregate : ResponseData ℕ :=
  [("7", .array [.undefined, .number 12, .notFinite]), ("symbol", .string "BTC\x22\x5cUSD\x0a"),
    ("exchangeName", .undefined), ("intervalStart", .date (some "2024-01-01T00:00:00.000Z"))]

theorem bodies_alike_aggregate : ∃ final,
    Run (RenderedRequests.step naturals 1 aggregate) {} [.serves, .serves, .removes, .fails true, .serves] final ∧
      final.bodies.length = 3 ∧ ∀ body ∈ final.bodies, body = renderPromiseAsJson naturals 1 aggregate := by
  obtain ⟨final, run, served⟩ : ∃ final,
      Run (RenderedRequests.step naturals 1 aggregate) {} [.serves, .serves, .removes, .fails true, .serves] final ∧
        final.bodies.length = 3 :=
    ⟨_, run_iff_execute.mpr rfl, rfl⟩
  have renderable : Renderable aggregate := by
    refine ⟨⟨by decide, ?_⟩, ?_⟩
    · simp [aggregate, ResponseValue.CanonicalProperties, ResponseValue.Canonical, ResponseValue.CanonicalItems]
    · simp [aggregate]
  exact ⟨final, run, served, (bodies_alike renderable run).1⟩

end

end PriceFeed.UseCases
