import PriceFeed.Collectors.ProcessAllocator
import PriceFeed.Library.Json

/-! The processes of the collectors: each gets the ids of its exchanges as an option, and takes
those exchanges of the configuration that it reads there. -/

namespace PriceFeed.Collectors

open PriceFeed.Library

/-- The configuration of an exchange. -/
structure ExchangeConfig (Options : Type*) where
  id : String
  options : Options
  deriving DecidableEq, Repr

variable {Options Number : Type*} (format : NumberFormat Number)

/-- `JSON.stringify(exchangeBin)` in apostrophes. -/
def exchangeIdsOption (exchangeBin : List String) : String :=
  String.ofList ('\x27' :: (Json.stringify format (.array (exchangeBin.map .string)) ++ ['\x27']))

def cliStringFormat (value : String) : String :=
  if value = "" then value else String.ofList value.toList.tail.dropLast

/-- The rules `required`, `string`, `cli_string_format` and `json`. An empty text stays one. -/
def validateExchangeIds (value : String) : Except String (Json Number) :=
  if value = "" then .error "REQUIRED"
  else
    let text := cliStringFormat value
    if text = "" then .ok (.string "")
    else
      match Json.parse format text.toList with
      | some parsedJson => .ok parsedJson
      | none => .error s!"INVALID_JSON {text}"

/-- What `new Set(exchangeIds)` has, where the value can be iterated. -/
def exchangeIdsSet : Json Number → Option (String → Bool)
  | .null => some fun _ => false
  | .string text => some fun id => text.toList.any fun symbol => id = String.ofList [symbol]
  | .array items => some fun id => items.any fun
    | .string text => text = id
    | _ => false
  | _ => none

/-- The exchanges that a process collects. -/
def resolveConfig (exchanges : List (ExchangeConfig Options)) (exchangeIds : Json Number) :
    Option (List (ExchangeConfig Options)) :=
  (exchangeIdsSet exchangeIds).map fun has => exchanges.filter fun exchange => has exchange.id

/-- What the process does that gets the option. -/
def collectedExchanges (exchanges : List (ExchangeConfig Options)) (option : String) :
    Option (List (ExchangeConfig Options)) :=
  match validateExchangeIds format option with
  | .ok exchangeIds => resolveConfig exchanges exchangeIds
  | .error _ => none

/-- The exchanges of each process, if all of them start. -/
def ProcessAllocator.deploy (allocator : ProcessAllocator) (exchanges : List (ExchangeConfig Options)) :
    Option (List (List (ExchangeConfig Options))) :=
  (allocator.allocateExchangeBins (exchanges.map ExchangeConfig.id)).bind fun exchangeBins =>
    exchangeBins.mapM fun exchangeBin => collectedExchanges format exchanges (exchangeIdsOption format exchangeBin)

variable {format} {exchanges : List (ExchangeConfig Options)} {exchangeBin : List String}

private theorem canonical_strings (texts : List String) : Json.Canonical (Json.array (texts.map (Json.string : _ → Json Number))) := by
  change Json.CanonicalItems _
  induction texts with
  | nil => trivial
  | cons text texts ih => exact ⟨trivial, ih⟩

private theorem cliStringFormat_quoted (text : List Char) :
    cliStringFormat (String.ofList ('\x27' :: (text ++ ['\x27']))) = String.ofList text := by
  have present : String.ofList ('\x27' :: (text ++ ['\x27'])) ≠ "" := by
    intro empty
    have lists := congrArg String.toList empty
    simp at lists
  rw [cliStringFormat, if_neg present, String.toList_ofList, List.tail_cons, List.dropLast_concat]

private theorem validateExchangeIds_exchangeIdsOption :
    validateExchangeIds format (exchangeIdsOption format exchangeBin) = .ok (.array (exchangeBin.map .string)) := by
  have parsed : Json.parse format (Json.stringify format (.array (exchangeBin.map .string))) = _ :=
    Json.parse_stringify (canonical_strings exchangeBin)
  have quoted : exchangeIdsOption format exchangeBin ≠ "" := by
    intro empty
    have lists := congrArg String.toList empty
    simp [exchangeIdsOption] at lists
  have written : String.ofList (Json.stringify format (.array (exchangeBin.map .string))) ≠ "" := by
    intro empty
    have lists := congrArg String.toList empty
    simp [Json.stringify] at lists
  rw [validateExchangeIds, if_neg quoted, exchangeIdsOption, cliStringFormat_quoted]
  simp only [if_neg written, String.toList_ofList, parsed]

private theorem any_string_eq (id : String) : ((exchangeBin.map Json.string).any fun item : Json Number =>
    match item with
    | .string text => text = id
    | _ => false) = decide (id ∈ exchangeBin) := by
  induction exchangeBin with
  | nil => rfl
  | cons text texts ih =>
    rw [List.map_cons, List.any_cons, ih]
    simp [eq_comm]

private theorem collectedExchanges_exchangeIdsOption :
    collectedExchanges format exchanges (exchangeIdsOption format exchangeBin) =
      some (exchanges.filter fun exchange => exchange.id ∈ exchangeBin) := by
  rw [collectedExchanges, validateExchangeIds_exchangeIdsOption]
  change some _ = some _
  congr 1
  exact List.filter_congr fun exchange _ => any_string_eq exchange.id

private theorem length_ofBin (distinct : (exchanges.map ExchangeConfig.id).Nodup) (single : exchangeBin.Nodup)
    (configured : exchangeBin ⊆ exchanges.map ExchangeConfig.id) :
    (exchanges.filter fun exchange => exchange.id ∈ exchangeBin).length = exchangeBin.length := by
  have same : ((exchanges.filter fun exchange => exchange.id ∈ exchangeBin).map ExchangeConfig.id).Perm
      exchangeBin := by
    apply (List.perm_ext_iff_of_nodup (distinct.sublist (List.filter_sublist.map _)) single).mpr
    intro id
    constructor
    · intro member
      obtain ⟨exchange, held, rfl⟩ := List.mem_map.mp member
      exact of_decide_eq_true (List.mem_filter.mp held).2
    · intro member
      obtain ⟨exchange, present, rfl⟩ := List.mem_map.mp (configured member)
      exact List.mem_map_of_mem (List.mem_filter.mpr ⟨present, decide_eq_true member⟩)
  rw [← same.length_eq, List.length_map]

/-- The exchanges of the bins of their ids are as well spread as the ids. -/
private theorem ProcessAllocator.BalancedPartition.ofIds {allocator : ProcessAllocator} {exchangeBins : List (List String)}
    (distinct : (exchanges.map ExchangeConfig.id).Nodup)
    (partition : allocator.BalancedPartition (exchanges.map ExchangeConfig.id) exchangeBins) :
    allocator.BalancedPartition exchanges
      (exchangeBins.map fun exchangeBin => exchanges.filter fun exchange => exchange.id ∈ exchangeBin) := by
  have single : exchangeBins.flatten.Nodup := partition.contents.nodup_iff.mpr distinct
  have size : ∀ exchangeBin ∈ exchangeBins,
      (exchanges.filter fun exchange => exchange.id ∈ exchangeBin).length = exchangeBin.length := by
    intro exchangeBin member
    refine length_ofBin distinct ((List.nodup_flatten.mp single).1 exchangeBin member) fun id held => ?_
    exact partition.contents.subset (List.mem_flatten_of_mem member held)
  constructor
  case contents =>
    rw [← List.flatMap_def]
    refine flatMap_filter_perm ExchangeConfig.id single fun exchange member => ?_
    exact partition.contents.mem_iff.mpr (List.mem_map_of_mem member)
  case nonempty =>
    intro process member empty
    obtain ⟨exchangeBin, held, rfl⟩ := List.mem_map.mp member
    have length := size exchangeBin held
    rw [empty, List.length_nil] at length
    exact partition.nonempty exchangeBin held (List.eq_nil_of_length_eq_zero length.symm)
  case capacity =>
    intro process member
    obtain ⟨exchangeBin, held, rfl⟩ := List.mem_map.mp member
    rw [size exchangeBin held]
    exact partition.capacity exchangeBin held
  case number =>
    have number := partition.number
    rw [List.length_map] at number ⊢
    exact number
  case balanced =>
    intro few process member other also
    obtain ⟨exchangeBin, held, rfl⟩ := List.mem_map.mp member
    obtain ⟨another, included, rfl⟩ := List.mem_map.mp also
    rw [List.length_map] at few
    rw [size exchangeBin held, size another included]
    exact partition.balanced few exchangeBin held another included

/-- Every configured exchange is collected by one process and no other, and the processes are
as many and as full as the allocation of the ids makes them, although each learns its
exchanges from the text of an option. -/
theorem deploy_balanced {allocator : ProcessAllocator} (cpus : 1 ≤ allocator.cpuCount)
    (tolerated : 1 ≤ allocator.exchangesPerProcess) (distinct : (exchanges.map ExchangeConfig.id).Nodup) :
    ∃ processes, allocator.deploy format exchanges = some processes ∧
      allocator.BalancedPartition exchanges processes ∧ ∀ process ∈ processes, process.Sublist exchanges := by
  obtain ⟨last, run, filling⟩ := exists_run (fun id filling => ProcessAllocator.filling_step filling id)
    (ProcessAllocator.filling_initial cpus tolerated) (exchanges.map ExchangeConfig.id)
  obtain ⟨allocated, partition⟩ := ProcessAllocator.balanced_of_run run filling
  refine ⟨_, ?_, partition.ofIds distinct, ?_⟩
  · rw [ProcessAllocator.deploy, allocated, Option.bind_some]
    simp only [collectedExchanges_exchangeIdsOption]
    exact List.mapM_pure
  · intro process member
    obtain ⟨exchangeBin, _, rfl⟩ := List.mem_map.mp member
    exact List.filter_sublist

def configured : List (ExchangeConfig Unit) :=
  [⟨"kraken", ()⟩, ⟨"gate", ()⟩, ⟨"o'kx", ()⟩, ⟨"bybit", ()⟩, ⟨"bitget", ()⟩]

/-- Four CPUs, and at most two exchanges in a process. -/
theorem deploy_balanced_five : ∃ processes,
    ProcessAllocator.deploy naturals ⟨⟨1, 3, 2⟩, 2, 4⟩ configured = some processes ∧
      ProcessAllocator.BalancedPartition ⟨⟨1, 3, 2⟩, 2, 4⟩ configured processes ∧
        ∀ process ∈ processes, process.Sublist configured :=
  deploy_balanced (by decide) (by decide) (by decide)

end PriceFeed.Collectors
