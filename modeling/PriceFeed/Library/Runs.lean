import Mathlib.Logic.Basic

/-! Runs of a partial step function: executions, invariants, and properties that
hold after a run exactly when each of its steps met a condition. -/

namespace PriceFeed.Library

variable {State Label : Type*}

/-- `Run step start labels last`: the labels, taken in order, lead from `start` to `last`. -/
inductive Run (step : State → Label → Option State) : State → List Label → State → Prop where
  | nil (start) : Run step start [] start
  | cons (next : step start label = some middle) (rest : Run step middle labels last) :
      Run step start (label :: labels) last

/-- Every step of a run meets a condition on the state before it. -/
def Throughout (step : State → Label → Option State) (meets : State → Label → Prop) :
    State → List Label → Prop
  | _, [] => True
  | state, label :: labels =>
    meets state label ∧ ∀ next ∈ step state label, Throughout step meets next labels

instance decidableThroughout {step : State → Label → Option State} {meets : State → Label → Prop}
    [∀ state label, Decidable (meets state label)] :
    ∀ start labels, Decidable (Throughout step meets start labels)
  | _, [] => isTrue trivial
  | state, label :: labels =>
    have : DecidablePred fun next => Throughout step meets next labels := fun next =>
      decidableThroughout next labels
    inferInstanceAs (Decidable (meets state label ∧
      ∀ next ∈ step state label, Throughout step meets next labels))

/-- Some step of a run makes something happen, judged by the state before it. -/
def Sometime (step : State → Label → Option State) (happens : State → Label → Prop) :
    State → List Label → Prop
  | _, [] => False
  | state, label :: labels =>
    happens state label ∨ ∃ next ∈ step state label, Sometime step happens next labels

/-- The state after the labels, if each of them is enabled in its turn. -/
def execute (step : State → Label → Option State) : State → List Label → Option State
  | state, [] => some state
  | state, label :: labels => (step state label).bind fun next => execute step next labels

/-- A guarded step that was taken: its guard held, and it led to its state. -/
theorem enabled {guard : Prop} [Decidable guard] {state next : State}
    (taken : (if guard then some state else none) = some next) : guard ∧ state = next := by
  by_cases held : guard
  · rw [if_pos held] at taken
    exact ⟨held, Option.some.inj taken⟩
  · rw [if_neg held] at taken
    cases taken

variable {step : State → Label → Option State} {meets : State → Label → Prop}
variable {start last : State} {labels : List Label}

theorem run_iff_execute : Run step start labels last ↔ execute step start labels = some last := by
  constructor
  · intro run
    induction run with
    | nil => rfl
    | cons next _ ih => rw [execute, next]; exact ih
  · intro executed
    induction labels generalizing start with
    | nil =>
      cases executed
      exact .nil _
    | cons label labels ih =>
      obtain ⟨middle, next, rest⟩ := Option.bind_eq_some_iff.mp executed
      exact .cons next (ih rest)

theorem run_append_iff {earlier later : List Label} : Run step start (earlier ++ later) last ↔
    ∃ middle, Run step start earlier middle ∧ Run step middle later last := by
  induction earlier generalizing start with
  | nil =>
    constructor
    · exact fun run => ⟨start, .nil start, run⟩
    · rintro ⟨middle, ⟨⟩, run⟩
      exact run
  | cons label earlier ih =>
    constructor
    · rintro (_ | ⟨next, rest⟩)
      obtain ⟨middle, before, after⟩ := ih.mp rest
      exact ⟨middle, .cons next before, after⟩
    · rintro ⟨middle, _ | ⟨next, before⟩, after⟩
      exact .cons next (ih.mpr ⟨middle, before, after⟩)

theorem throughout_of_forall (always : ∀ state, ∀ label ∈ labels, meets state label) :
    Throughout step meets start labels := by
  induction labels generalizing start with
  | nil => trivial
  | cons label labels ih =>
    refine ⟨always start label List.mem_cons_self, fun next _ => ih ?_⟩
    exact fun state other member => always state other (List.mem_cons_of_mem _ member)

theorem Throughout.mono {other : State → Label → Prop} (met : Throughout step meets start labels)
    (weaker : ∀ state, ∀ label ∈ labels, meets state label → other state label) :
    Throughout step other start labels := by
  induction labels generalizing start with
  | nil => trivial
  | cons label labels ih =>
    refine ⟨weaker start label List.mem_cons_self met.1, fun next taken => ih (met.2 next taken) ?_⟩
    exact fun state other member => weaker state other (List.mem_cons_of_mem _ member)

theorem Throughout.and {other : State → Label → Prop} (first : Throughout step meets start labels)
    (second : Throughout step other start labels) :
    Throughout step (fun state label => meets state label ∧ other state label) start labels := by
  induction labels generalizing start with
  | nil => trivial
  | cons label labels ih =>
    exact ⟨⟨first.1, second.1⟩, fun next taken => ih (first.2 next taken) (second.2 next taken)⟩

theorem Run.throughout_append_iff {earlier later : List Label} (run : Run step start earlier last) :
    Throughout step meets start (earlier ++ later) ↔
      Throughout step meets start earlier ∧ Throughout step meets last later := by
  induction run with
  | nil => exact (and_iff_right trivial).symm
  | cons next _ ih => simp [Throughout, next, ih, and_assoc]

/-- A run that does not meet the condition throughout meets it up to a step. -/
theorem Run.first_failure (run : Run step start labels last)
    (failed : ¬ Throughout step meets start labels) :
    ∃ before label after middle next, labels = before ++ label :: after ∧
      Run step start before middle ∧ Throughout step meets start before ∧
        ¬ meets middle label ∧ step middle label = some next := by
  induction run with
  | nil => exact absurd trivial failed
  | @cons start label middle labels last next rest ih =>
    by_cases met : meets start label
    · have later : ¬ Throughout step meets middle labels := by
        intro throughout
        refine failed ⟨met, fun other taken => ?_⟩
        rw [next, Option.mem_def, Option.some.injEq] at taken
        exact taken ▸ throughout
      obtain ⟨before, failing, after, reached, beyond, rfl, earlier, throughout, fails, taken⟩ := ih later
      refine ⟨label :: before, failing, after, reached, beyond, rfl, .cons next earlier, ?_, fails, taken⟩
      refine ⟨met, fun other taken => ?_⟩
      rw [next, Option.mem_def, Option.some.injEq] at taken
      exact taken ▸ throughout
    · exact ⟨[], label, labels, start, middle, rfl, .nil _, trivial, met, next⟩

/-- Conditions that agree under an invariant, which steps that meet them preserve, are met
by the same runs. -/
theorem Run.throughout_iff {sound : State → Prop} {other : State → Label → Prop}
    (agree : ∀ {state label next}, sound state → step state label = some next →
      (meets state label ↔ other state label))
    (preserved : ∀ {state label next}, sound state → meets state label →
      step state label = some next → sound next)
    (run : Run step start labels last) (initial : sound start) :
    Throughout step meets start labels ↔ Throughout step other start labels := by
  induction run with
  | nil => exact Iff.rfl
  | cons next _ ih =>
    simp only [Throughout, next, Option.mem_def, Option.some.injEq, forall_eq']
    constructor
    · rintro ⟨met, rest⟩
      exact ⟨(agree initial next).mp met, (ih (preserved initial met next)).mp rest⟩
    · rintro ⟨met, rest⟩
      have same := (agree initial next).mpr met
      exact ⟨same, (ih (preserved initial same next)).mpr rest⟩

/-- What every step preserves holds after every run. -/
theorem Run.invariant {holds : State → Prop}
    (preserved : ∀ {state label next}, holds state → step state label = some next → holds next)
    (run : Run step start labels last) (initial : holds start) : holds last := by
  induction run with
  | nil => exact initial
  | cons next _ ih => exact ih (preserved initial next)

/-- Where every label is enabled and preserves a property, every list of labels has its run. -/
theorem exists_run {holds : State → Prop}
    (proceeds : ∀ {state} label, holds state → ∃ next, step state label = some next ∧ holds next)
    (initial : holds start) (labels : List Label) :
    ∃ last, Run step start labels last ∧ holds last := by
  induction labels generalizing start with
  | nil => exact ⟨start, .nil start, initial⟩
  | cons label labels ih =>
    obtain ⟨next, taken, held⟩ := proceeds label initial
    obtain ⟨last, rest, final⟩ := ih held
    exact ⟨last, .cons taken rest, final⟩

/-- What a step that meets the condition preserves holds after every run that meets it throughout. -/
theorem Run.invariant_throughout {holds : State → Prop}
    (preserved : ∀ {state label next}, holds state → meets state label →
      step state label = some next → holds next)
    (run : Run step start labels last) (met : Throughout step meets start labels)
    (initial : holds start) : holds last := by
  induction run with
  | nil => exact initial
  | cons next _ ih => exact ih (met.2 _ next) (preserved initial met.1 next)

/-- What a step brings about exactly when something happens holds after a run
exactly when it held before or happened in the run. -/
theorem Run.reached_iff (reached : State → Prop) {happens : State → Label → Prop}
    (stepwise : ∀ {state label next}, step state label = some next →
      (reached next ↔ reached state ∨ happens state label))
    (run : Run step start labels last) :
    reached last ↔ reached start ∨ Sometime step happens start labels := by
  induction run with
  | nil => simp [Sometime]
  | cons next _ ih =>
    rw [ih, stepwise next, or_assoc]
    simp [Sometime, next]

/-- If, under an invariant, a step keeps a property exactly when it meets the
condition, then a run keeps it exactly when all its steps do. -/
theorem Run.keeps_iff {sound keeps : State → Prop}
    (preserved : ∀ {state label next}, sound state → step state label = some next → sound next)
    (stepwise : ∀ {state label next}, sound state → step state label = some next →
      (keeps next ↔ keeps state ∧ meets state label))
    (run : Run step start labels last) (initial : sound start) :
    keeps last ↔ keeps start ∧ Throughout step meets start labels := by
  induction run with
  | nil => simp [Throughout]
  | cons next rest ih =>
    rw [ih (preserved initial next), stepwise initial next, and_assoc]
    simp [Throughout, next]

end PriceFeed.Library
