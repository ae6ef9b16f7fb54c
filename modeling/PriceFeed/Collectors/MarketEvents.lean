import PriceFeed.Library.Lists
import PriceFeed.Library.OrderedMap
import PriceFeed.Library.Runs

/-! `MarketEventsManager`: the registry of event handlers and the listeners on the emitter. -/

namespace PriceFeed.Collectors

open PriceFeed.Library

/-- An object of a handler class, with the event name of its class. -/
structure MarketEventHandler where
  identity : ℕ
  eventName : String
  deriving DecidableEq, Repr

/-- A function object made by `this.execute.bind(this)`. -/
structure BoundHandler where
  identity : ℕ
  boundTo : MarketEventHandler
  deriving DecidableEq, Repr

/-- The handler classes are given by their event names. `listeners` is in the order of
registration, and `created` counts the objects that were made. -/
structure MarketEventsManager where
  MarketEventHandlers : List String
  marketEventHandlersMap : OrderedMap String MarketEventHandler := .empty
  listeners : List (String × BoundHandler) := []
  created : ℕ := 0

/-- A call that has completed. The handlers' own `init` may take any time, and `order` tells
in which order they were through. -/
inductive MarketEventsCall where
  | init (order : List ℕ)
  | close
  deriving DecidableEq, Repr

namespace MarketEventsManager

variable (manager : MarketEventsManager)

def initial (MarketEventHandlers : List String) : MarketEventsManager :=
  { MarketEventHandlers := MarketEventHandlers }

/-- Each call binds `execute` anew. -/
def getHandler (handler : MarketEventHandler) : MarketEventsManager × BoundHandler :=
  ({ manager with created := manager.created + 1 }, ⟨manager.created, handler⟩)

def on (eventName : String) (listener : BoundHandler) : MarketEventsManager :=
  { manager with listeners := manager.listeners ++ [(eventName, listener)] }

/-- Of several registrations of one function the latest goes. -/
def removeListener (eventName : String) (listener : BoundHandler) : MarketEventsManager :=
  { manager with listeners := (manager.listeners.reverse.erase (eventName, listener)).reverse }

/-- The handlers that `new` makes, one for each class. -/
def newHandlers : List MarketEventHandler :=
  manager.MarketEventHandlers.mapIdx fun index eventName => ⟨manager.created + index, eventName⟩

/-- What `init` does for a handler once that is initiated. -/
def register (handler : MarketEventHandler) : MarketEventsManager :=
  let mapped := { manager with
    marketEventHandlersMap := manager.marketEventHandlersMap.set handler.eventName handler }
  let (bound, listener) := mapped.getHandler handler
  bound.on handler.eventName listener

def init (order : List ℕ) : MarketEventsManager :=
  let constructed := { manager with created := manager.created + manager.MarketEventHandlers.length }
  (order.filterMap (manager.newHandlers[·]?)).foldl register constructed

/-- What `close` does for an entry of the map. -/
def unregister (entry : String × MarketEventHandler) : MarketEventsManager :=
  let (bound, listener) := manager.getHandler entry.2
  bound.removeListener entry.1 listener

def close : MarketEventsManager :=
  { manager.marketEventHandlersMap.entries.foldl unregister manager with
    marketEventHandlersMap := .empty }

/-- The handlers that an event invokes, and whether there was any. -/
def emitAsync (type : String) : List MarketEventHandler × Bool :=
  let handler := manager.listeners.filter fun listener => listener.1 = type
  (handler.map fun listener => listener.2.boundTo, !handler.isEmpty)

def step (manager : MarketEventsManager) : MarketEventsCall → Option MarketEventsManager
  | .init order =>
    if order.Perm (List.range manager.MarketEventHandlers.length) then some (manager.init order) else none
  | .close => some manager.close

/-- What the listeners are bound to, under the names of their events. -/
def registered : List (String × MarketEventHandler) :=
  manager.listeners.map fun listener => (listener.1, listener.2.boundTo)

/-- One listener for each entry of the map and no other, so that an event invokes the handler
of its entry, once. -/
structure Matches : Prop where
  registered : manager.registered.Perm manager.marketEventHandlersMap.entries
  invoked : ∀ type, manager.emitAsync type =
    ((manager.marketEventHandlersMap.get? type).toList, (manager.marketEventHandlersMap.get? type).isSome)

/-- No function object is made twice. -/
def Fresh : Prop := ∀ listener ∈ manager.listeners, listener.2.identity < manager.created

theorem fresh_initial (MarketEventHandlers : List String) : (initial MarketEventHandlers).Fresh := by
  intro listener member
  cases member

private theorem emitAsync_registered (type : String) :
    (manager.emitAsync type).1 =
      (manager.registered.filter fun entry => entry.1 = type).map Prod.snd := by
  simp [emitAsync, registered, List.filter_map, Function.comp_def]

private theorem emitAsync_isSome (type : String) :
    (manager.emitAsync type).2 = !(manager.emitAsync type).1.isEmpty := by
  simp [emitAsync]

variable {manager : MarketEventsManager}

/-- It is enough to compare the registrations, since a map has one entry for a name. -/
theorem matches_iff :
    manager.Matches ↔ manager.registered.Perm manager.marketEventHandlersMap.entries := by
  constructor
  · exact fun agree => agree.registered
  · intro registered
    have invoked : ∀ type, (manager.emitAsync type).1 =
        (manager.marketEventHandlersMap.get? type).toList := by
      intro type
      rw [emitAsync_registered]
      exact OrderedMap.filter_key_of_perm registered type
    refine ⟨registered, fun type => Prod.ext (invoked type) ?_⟩
    rw [emitAsync_isSome, invoked]
    cases manager.marketEventHandlersMap.get? type <;> rfl

private theorem register_foldl (handlers : List MarketEventHandler) (fresh : manager.Fresh) :
    (handlers.foldl register manager).Fresh ∧
      (handlers.foldl register manager).MarketEventHandlers = manager.MarketEventHandlers ∧
      (handlers.foldl register manager).registered =
        manager.registered ++ handlers.map (fun handler => (handler.eventName, handler)) ∧
      (handlers.foldl register manager).marketEventHandlersMap =
        handlers.foldl (fun map handler => map.set handler.eventName handler)
          manager.marketEventHandlersMap := by
  induction handlers generalizing manager with
  | nil => exact ⟨fresh, rfl, (List.append_nil _).symm, rfl⟩
  | cons handler rest ih =>
    have next : (manager.register handler).Fresh := by
      intro listener member
      rcases List.mem_append.mp member with earlier | new
      · exact Nat.lt_succ_of_lt (fresh listener earlier)
      · obtain rfl := List.mem_singleton.mp new
        exact Nat.lt_succ_self _
    obtain ⟨later, classes, registered, mapped⟩ := ih next
    refine ⟨later, classes, ?_, mapped⟩
    rw [List.foldl_cons, registered]
    simp [register, getHandler, on, MarketEventsManager.registered]

private theorem unregister_listeners (entry : String × MarketEventHandler) (fresh : manager.Fresh) :
    (manager.unregister entry).listeners = manager.listeners := by
  have absent : (entry.1, (⟨manager.created, entry.2⟩ : BoundHandler)) ∉ manager.listeners.reverse := by
    intro member
    exact Nat.lt_irrefl _ (fresh _ (List.mem_reverse.mp member))
  simp only [unregister, getHandler, removeListener]
  rw [List.erase_of_not_mem absent, List.reverse_reverse]

private theorem unregister_foldl (entries : List (String × MarketEventHandler)) (fresh : manager.Fresh) :
    (entries.foldl unregister manager).Fresh ∧
      (entries.foldl unregister manager).MarketEventHandlers = manager.MarketEventHandlers ∧
      (entries.foldl unregister manager).listeners = manager.listeners := by
  induction entries generalizing manager with
  | nil => exact ⟨fresh, rfl, rfl⟩
  | cons entry rest ih =>
    have kept := unregister_listeners entry fresh
    have next : (manager.unregister entry).Fresh := by
      intro listener member
      rw [kept] at member
      exact Nat.lt_succ_of_lt (fresh listener member)
    obtain ⟨later, classes, listeners⟩ := ih next
    exact ⟨later, classes, listeners.trans kept⟩

theorem close_spec (fresh : manager.Fresh) :
    manager.close.Fresh ∧ manager.close.MarketEventHandlers = manager.MarketEventHandlers ∧
      manager.close.registered = manager.registered ∧ manager.close.marketEventHandlersMap = .empty := by
  obtain ⟨later, classes, listeners⟩ :=
    unregister_foldl manager.marketEventHandlersMap.entries fresh
  refine ⟨later, classes, ?_, rfl⟩
  exact congrArg (List.map fun listener : String × BoundHandler => (listener.1, listener.2.boundTo)) listeners

private theorem newHandlers_names (manager : MarketEventsManager) :
    manager.newHandlers.map MarketEventHandler.eventName = manager.MarketEventHandlers := by
  apply List.ext_getElem?
  intro index
  simp [newHandlers, Function.comp_def]

/-- `init` registers a handler for each class, in some order. -/
theorem init_spec (fresh : manager.Fresh) {order : List ℕ}
    (complete : order.Perm (List.range manager.MarketEventHandlers.length)) :
    ∃ handlers : List MarketEventHandler,
      (handlers.map MarketEventHandler.eventName).Perm manager.MarketEventHandlers ∧
      (manager.init order).Fresh ∧
      (manager.init order).MarketEventHandlers = manager.MarketEventHandlers ∧
      (manager.init order).registered =
        manager.registered ++ handlers.map (fun handler => (handler.eventName, handler)) ∧
      (manager.init order).marketEventHandlersMap =
        handlers.foldl (fun map handler => map.set handler.eventName handler)
          manager.marketEventHandlersMap := by
  have constructed : ({ manager with
      created := manager.created + manager.MarketEventHandlers.length } : MarketEventsManager).Fresh :=
    fun listener member => Nat.lt_add_right _ (fresh listener member)
  refine ⟨order.filterMap (manager.newHandlers[·]?), ?_, register_foldl _ constructed⟩
  have size : manager.newHandlers.length = manager.MarketEventHandlers.length := by simp [newHandlers]
  rw [← size] at complete
  have all := complete.filterMap (manager.newHandlers[·]?)
  rw [filterMap_getElem?_range] at all
  rw [← newHandlers_names manager]
  exact all.map _

private theorem fresh_step {call : MarketEventsCall} {next : MarketEventsManager} (fresh : manager.Fresh)
    (taken : step manager call = some next) :
    next.Fresh ∧ next.MarketEventHandlers = manager.MarketEventHandlers := by
  cases call with
  | init order =>
    obtain ⟨complete, rfl⟩ := enabled taken
    obtain ⟨_, -, later, classes, -⟩ := init_spec fresh complete
    exact ⟨later, classes⟩
  | close =>
    obtain rfl := Option.some.inj taken
    exact ⟨(close_spec fresh).1, (close_spec fresh).2.1⟩

/-- Nothing is registered, neither in the map nor on the emitter. -/
def Empty (manager : MarketEventsManager) : Prop :=
  manager.registered = [] ∧ manager.marketEventHandlersMap = .empty

theorem Empty.matches (empty : manager.Empty) : manager.Matches := by
  rw [matches_iff, empty.1, empty.2]
  exact .refl _

private theorem entries_foldl_set {map : OrderedMap String MarketEventHandler} {handlers : List MarketEventHandler}
    (distinct : (handlers.map MarketEventHandler.eventName).Nodup)
    (absent : ∀ handler ∈ handlers, map.get? handler.eventName = none) :
    (handlers.foldl (fun map handler => map.set handler.eventName handler) map).entries =
      map.entries ++ handlers.map fun handler => (handler.eventName, handler) := by
  induction handlers generalizing map with
  | nil => exact (List.append_nil _).symm
  | cons handler rest ih =>
    obtain ⟨fresh, others⟩ := List.nodup_cons.mp distinct
    obtain ⟨here, later⟩ := List.forall_mem_cons.mp absent
    rw [List.foldl_cons, ih others, OrderedMap.entries_set_new here]
    · simp
    · intro other member
      have differs : other.eventName ≠ handler.eventName := fun same =>
        fresh (List.mem_map.mpr ⟨other, member, same⟩)
      rw [OrderedMap.get?_set, if_neg differs.symm]
      exact later other member

theorem mem_keys_foldl_set {map : OrderedMap String MarketEventHandler} {handlers : List MarketEventHandler}
    {name : String}
    (member : name ∈ (handlers.foldl (fun map handler => map.set handler.eventName handler)
      map).entries.map Prod.fst) :
    name ∈ map.entries.map Prod.fst ∨ name ∈ handlers.map MarketEventHandler.eventName := by
  induction handlers generalizing map with
  | nil => exact .inl member
  | cons handler rest ih =>
    rcases ih member with earlier | later
    · rcases OrderedMap.mem_keys_setEntries.mp earlier with rfl | held
      · exact .inr List.mem_cons_self
      · exact .inl held
    · exact .inr (List.mem_cons_of_mem _ later)

/-- `init` on an empty manager matches exactly when the names of the events are distinct. -/
theorem matches_init_iff (fresh : manager.Fresh) (empty : manager.Empty) {order : List ℕ}
    (complete : order.Perm (List.range manager.MarketEventHandlers.length)) :
    (manager.init order).Matches ↔ manager.MarketEventHandlers.Nodup := by
  obtain ⟨handlers, names, -, -, registered, mapped⟩ := init_spec fresh complete
  rw [matches_iff, registered, mapped, empty.1, empty.2, List.nil_append, ← names.nodup_iff]
  constructor
  · intro same
    have keys := same.map Prod.fst
    rw [List.map_map] at keys
    exact keys.nodup_iff.mpr (OrderedMap.distinct _)
  · intro distinct
    rw [entries_foldl_set distinct (by simp)]
    exact .refl _

/-- After an `init` the map holds names of handler classes only, and there is a listener for
each class at least. -/
structure Initiated (manager : MarketEventsManager) : Prop where
  known : ∀ name ∈ manager.marketEventHandlersMap.entries.map Prod.fst, name ∈ manager.MarketEventHandlers
  listening : manager.MarketEventHandlers.length ≤ manager.registered.length

private theorem initiated_init (fresh : manager.Fresh) (empty : manager.Empty) {order : List ℕ}
    (complete : order.Perm (List.range manager.MarketEventHandlers.length)) :
    (manager.init order).Initiated := by
  obtain ⟨handlers, names, -, classes, registered, mapped⟩ := init_spec fresh complete
  constructor
  · intro name member
    rw [mapped] at member
    rw [classes, ← names.mem_iff]
    rcases mem_keys_foldl_set member with earlier | new
    · rw [empty.2] at earlier
      cases earlier
    · exact new
  · rw [classes, registered, ← names.length_eq]
    simp

/-- Once initiated, neither a further `init` nor a `close` ends with the listeners of the map. -/
private theorem Initiated.not_matches_step (initiated : manager.Initiated) (fresh : manager.Fresh)
    (some : manager.MarketEventHandlers ≠ []) {call : MarketEventsCall} {next : MarketEventsManager}
    (taken : step manager call = .some next) : ¬ next.Matches := by
  rw [matches_iff]
  intro same
  have size := same.length_eq
  have classes : 0 < manager.MarketEventHandlers.length := List.length_pos_iff.mpr some
  have listening := initiated.listening
  cases call with
  | close =>
    obtain rfl := Option.some.inj taken
    obtain ⟨-, -, registered, mapped⟩ := close_spec fresh
    rw [registered, mapped] at size
    have none : manager.registered.length = 0 := size
    omega
  | init order =>
    obtain ⟨complete, rfl⟩ := enabled taken
    obtain ⟨handlers, names, -, -, registered, mapped⟩ := init_spec fresh complete
    have known : (manager.init order).marketEventHandlersMap.entries.map Prod.fst ⊆
        manager.MarketEventHandlers := by
      intro name member
      rw [mapped] at member
      rcases mem_keys_foldl_set member with earlier | new
      · exact initiated.known name earlier
      · exact names.mem_iff.mp new
    have few := (List.subperm_of_subset (OrderedMap.distinct _) known).length_le
    have added := names.length_eq
    rw [registered, List.length_append] at size
    simp only [List.length_map] at few added size
    omega

end MarketEventsManager

/-- There are no handler classes, or `init` is never called, or the names of the events are
distinct and the only `init` is the last call. -/
def Undisturbed (MarketEventHandlers : List String) (calls : List MarketEventsCall) : Prop :=
  MarketEventHandlers = [] ∨ (∀ call ∈ calls, call = .close) ∨
    MarketEventHandlers.Nodup ∧ ∃ closes order, (∀ call ∈ closes, call = .close) ∧
      calls = closes ++ [.init order]

section Calls

open MarketEventsManager

variable {MarketEventHandlers : List String} {manager last : MarketEventsManager}
  {calls : List MarketEventsCall}

/-- A manager of these classes. -/
structure Made (MarketEventHandlers : List String) (manager : MarketEventsManager) : Prop where
  fresh : manager.Fresh
  classes : manager.MarketEventHandlers = MarketEventHandlers

theorem made_initial (MarketEventHandlers : List String) : Made MarketEventHandlers (initial MarketEventHandlers) :=
  ⟨fresh_initial _, rfl⟩

theorem Made.step {call : MarketEventsCall} (made : Made MarketEventHandlers manager)
    (taken : MarketEventsManager.step manager call = some last) : Made MarketEventHandlers last :=
  have ⟨fresh, classes⟩ := fresh_step made.fresh taken
  ⟨fresh, classes.trans made.classes⟩

private theorem made_run (run : Run step (initial MarketEventHandlers) calls last) : Made MarketEventHandlers last :=
  run.invariant Made.step (made_initial _)

/-- Nothing has been registered with the manager. -/
structure Idle (MarketEventHandlers : List String) (manager : MarketEventsManager) : Prop extends
    Made MarketEventHandlers manager where
  empty : manager.Empty

private theorem idle_initial (MarketEventHandlers : List String) : Idle MarketEventHandlers (initial MarketEventHandlers) :=
  ⟨made_initial _, rfl, rfl⟩

theorem Idle.close (idle : Idle MarketEventHandlers manager) : Idle MarketEventHandlers manager.close := by
  obtain ⟨fresh, classes, registered, mapped⟩ := close_spec idle.fresh
  exact ⟨⟨fresh, classes.trans idle.classes⟩, registered.trans idle.empty.1, mapped⟩

theorem Idle.init (idle : Idle [] manager) {order : List ℕ}
    (complete : order.Perm (List.range manager.MarketEventHandlers.length)) : Idle [] (manager.init order) := by
  obtain ⟨handlers, names, fresh, classes, registered, mapped⟩ := init_spec idle.fresh complete
  rw [idle.classes, List.perm_nil, List.map_eq_nil_iff] at names
  subst handlers
  exact ⟨⟨fresh, classes.trans idle.classes⟩, by rw [registered, idle.empty.1]; rfl, mapped.trans idle.empty.2⟩

theorem idle_run (closes : MarketEventHandlers = [] ∨ ∀ call ∈ calls, call = .close)
    (run : Run step (initial MarketEventHandlers) calls last) : Idle MarketEventHandlers last := by
  have closing : Throughout step (fun _ call => MarketEventHandlers = [] ∨ call = .close)
      (initial MarketEventHandlers) calls :=
    throughout_of_forall fun _ call member => closes.imp_right fun all => all call member
  refine run.invariant_throughout (fun idle meets taken => ?_) closing (idle_initial _)
  rename_i call _
  cases call with
  | close =>
    obtain rfl := Option.some.inj taken
    exact idle.close
  | init order =>
    obtain ⟨complete, rfl⟩ := enabled taken
    rcases meets with rfl | impossible
    · exact idle.init complete
    · cases impossible

private theorem split_init (some : ¬ ∀ call ∈ calls, call = .close) :
    ∃ closes order rest, (∀ call ∈ closes, call = .close) ∧ calls = closes ++ .init order :: rest := by
  induction calls with
  | nil => exact absurd (fun call member => nomatch member) some
  | cons call calls ih =>
    cases call with
    | init order => exact ⟨[], order, calls, List.forall_mem_nil _, rfl⟩
    | close =>
      have later : ¬ ∀ call ∈ calls, call = .close := fun all =>
        some (List.forall_mem_cons.mpr ⟨rfl, all⟩)
      obtain ⟨closes, order, rest, all, rfl⟩ := ih later
      exact ⟨.close :: closes, order, rest, List.forall_mem_cons.mpr ⟨rfl, all⟩, rfl⟩

/-- After each call of a run there is one listener for each entry of the map. -/
def MatchThroughout (MarketEventHandlers : List String) (calls : List MarketEventsCall) : Prop :=
  ∀ before after reached, calls = before ++ after →
    Run step (initial MarketEventHandlers) before reached → reached.Matches

theorem matchThroughout_iff (run : Run step (initial MarketEventHandlers) calls last) :
    MatchThroughout MarketEventHandlers calls ↔ Undisturbed MarketEventHandlers calls := by
  constructor
  · intro throughout
    by_cases none : MarketEventHandlers = []
    · exact .inl none
    by_cases closed : ∀ call ∈ calls, call = .close
    · exact .inr (.inl closed)
    obtain ⟨closes, order, rest, all, rfl⟩ := split_init closed
    obtain ⟨middle, before, taken⟩ := run_append_iff.mp run
    have idle := idle_run (.inr all) before
    cases taken with
    | cons initiates later =>
      obtain ⟨complete, rfl⟩ := enabled initiates
      have through : Run step (initial MarketEventHandlers) (closes ++ [.init order]) (middle.init order) :=
        run_append_iff.mpr ⟨middle, before, .cons initiates (.nil _)⟩
      have here := throughout (closes ++ [.init order]) rest _ (by simp) through
      rw [matches_init_iff idle.fresh idle.empty complete, idle.classes] at here
      cases later with
      | nil => exact .inr (.inr ⟨here, closes, order, all, rfl⟩)
      | @cons _ call next calls _ further later =>
        have initiated := initiated_init idle.fresh idle.empty complete
        have made := made_run through
        have some : (middle.init order).MarketEventHandlers ≠ [] := made.classes ▸ none
        refine absurd ?_ (initiated.not_matches_step made.fresh some further)
        apply throughout (closes ++ [.init order, call]) calls next (by simp)
        simpa using run_append_iff.mpr ⟨_, through, .cons further (.nil _)⟩
  · intro undisturbed before after reached split reaches
    rcases undisturbed with none | closed | ⟨distinct, closes, order, all, rfl⟩
    · exact (idle_run (.inl none) reaches).empty.matches
    · subst split
      have earlier : ∀ call ∈ before, call = .close := fun call member =>
        closed call (List.mem_append_left _ member)
      exact (idle_run (.inr earlier) reaches).empty.matches
    · rcases List.eq_nil_or_concat' after with rfl | ⟨rest, final, rfl⟩
      · -- the last call is the `init`
        rw [List.append_nil] at split
        subst before
        obtain ⟨middle, before, taken⟩ := run_append_iff.mp reaches
        have idle := idle_run (.inr all) before
        cases taken with
        | cons initiates rest =>
          cases rest
          obtain ⟨complete, rfl⟩ := enabled initiates
          rw [matches_init_iff idle.fresh idle.empty complete, idle.classes]
          exact distinct
      · rw [← List.append_assoc] at split
        obtain rfl : closes = before ++ rest := (List.append_inj' split rfl).1
        have earlier : ∀ call ∈ before, call = .close := fun call member =>
          all call (List.mem_append_left _ member)
        exact (idle_run (.inr earlier) reaches).empty.matches

end Calls

/-- The handlers of the collectors, whose first `init` is through last. -/
theorem matchThroughout_iff_initiated :
    MatchThroughout ["RATE_LIMIT_EXCEEDED", "RELOAD_CLUSTER"] [.close, .init [1, 0]] ↔
      Undisturbed ["RATE_LIMIT_EXCEEDED", "RELOAD_CLUSTER"] [.close, .init [1, 0]] :=
  matchThroughout_iff (.cons rfl (.cons rfl (.nil _)))

/-- The collectors' manager is initiated and closed: its map is empty, and both listeners are
still there. -/
theorem not_matchThroughout_closed :
    ¬ ∀ (MarketEventHandlers : List String) (calls : List MarketEventsCall) (last : MarketEventsManager),
      Run MarketEventsManager.step (.initial MarketEventHandlers) calls last →
        MatchThroughout MarketEventHandlers calls := by
  intro always
  have run : Run MarketEventsManager.step (.initial ["RATE_LIMIT_EXCEEDED", "RELOAD_CLUSTER"])
      [.init [0, 1], .close] _ := .cons rfl (.cons rfl (.nil _))
  have closed := (always _ _ _ run _ [] _ rfl run).registered.length_eq
  exact absurd closed (by decide)

end PriceFeed.Collectors
