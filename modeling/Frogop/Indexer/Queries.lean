import Frogop.Indexer.Mirror
import Frogop.Lib.Numeral
import Mathlib.Data.List.Sort
import Mathlib.Data.Prod.Lex
import Mathlib.Data.String.Basic

/-!
# Queries of the REST API

The statements that read options and transfers, and the routes that answer with them. A `NaN` is
bound as `NULL`, which no column is equal to, and which `LIMIT` and `OFFSET` refuse.
-/

namespace Frogop.Indexer

namespace Database

variable (db : Database)

/-! ### Options -/

/-- `ORDER BY option_id` -/
def byOptionId (rows : List OptionRow) : List OptionRow :=
  rows.insertionSort fun a b => a.optionId ≤ b.optionId

/-- `ORDER BY pool_address, option_id` -/
def byPool (rows : List OptionRow) : List OptionRow :=
  rows.insertionSort fun a b =>
    toLex (a.poolAddress, a.optionId) ≤ toLex (b.poolAddress, b.optionId)

def getOption (poolAddress : String) (optionId : ℕ) : Option OptionRow :=
  db.options.find? fun o => o.HasKey poolAddress optionId

/-- `WHERE pool_address = ? [AND status = ?] ORDER BY option_id LIMIT ? OFFSET ?`; a status of
`some none` is `NULL`. -/
def getOptionsByPool (poolAddress : String) (status : Option (Option ℤ)) (limit offset : ℕ) :
    List OptionRow :=
  let rows := match status with
    | some status => (db.optionsOf poolAddress).filter fun o => some (o.status : ℤ) = status
    | none => db.optionsOf poolAddress
  ((byOptionId rows).drop offset).take limit

def getOptionsByWriter (poolAddress writer : String) : List OptionRow :=
  byOptionId ((db.optionsOf poolAddress).filter fun o => o.writer = writer)

/-- No text is equal to `NULL`. -/
def getOptionsByBuyer (poolAddress buyer : String) : List OptionRow :=
  byOptionId ((db.optionsOf poolAddress).filter fun o => o.buyer = some buyer)

def getOptionsByUser (userAddress : String) : List OptionRow :=
  let normalized := toLowerCase userAddress
  byPool (db.options.filter fun o => o.writer = normalized ∨ o.buyer = some normalized)

end Database

/-! ### Transfers -/

/-- How the database sorts transfers by their block. In which order rows of one block come is left
open. -/
structure BlockOrder where
  asc : List OptionTransferRow → List OptionTransferRow
  desc : List OptionTransferRow → List OptionTransferRow
  asc_perm : ∀ rows, (asc rows).Perm rows
  asc_sorted : ∀ rows, (asc rows).Pairwise fun a b => a.blockNumber ≤ b.blockNumber
  desc_perm : ∀ rows, (desc rows).Perm rows
  desc_sorted : ∀ rows, (desc rows).Pairwise fun a b => b.blockNumber ≤ a.blockNumber

/-- One of them leaves such rows as they are. -/
def BlockOrder.stable : BlockOrder where
  asc := List.insertionSort fun a b => a.blockNumber ≤ b.blockNumber
  desc := List.insertionSort fun a b => b.blockNumber ≤ a.blockNumber
  asc_perm := List.perm_insertionSort _
  asc_sorted := by
    have : Std.Total fun a b : OptionTransferRow => a.blockNumber ≤ b.blockNumber :=
      ⟨fun a b => Nat.le_total _ _⟩
    have : IsTrans OptionTransferRow fun a b => a.blockNumber ≤ b.blockNumber :=
      ⟨fun a b c => Nat.le_trans⟩
    exact List.pairwise_insertionSort _
  desc_perm := List.perm_insertionSort _
  desc_sorted := by
    have : Std.Total fun a b : OptionTransferRow => b.blockNumber ≤ a.blockNumber :=
      ⟨fun a b => Nat.le_total _ _⟩
    have : IsTrans OptionTransferRow fun a b => b.blockNumber ≤ a.blockNumber :=
      ⟨fun a b c hab hbc => Nat.le_trans hbc hab⟩
    exact List.pairwise_insertionSort _

/-- The tables, as the statements of the API read them. -/
structure D1Database extends Database where
  order : BlockOrder

namespace D1Database

variable (db : D1Database)

/-- `ORDER BY block_number ASC` -/
def getTransfersByOption (poolAddress : String) (optionId : ℕ) : List OptionTransferRow :=
  db.order.asc (db.optionTransfers.filter fun row =>
    row.poolAddress = poolAddress ∧ row.optionId = optionId)

/-- `ORDER BY block_number DESC` -/
def getTransfersByUser (address : String) : List OptionTransferRow :=
  db.order.desc (db.optionTransfers.filter fun row =>
    row.fromAddress = address ∨ row.toAddress = address)

end D1Database

/-! ### Routes -/

/-- The `URLSearchParams` that the route for the options of a pool looks at. -/
structure SearchParams where
  writer : Option String
  buyer : Option String
  status : Option String
  page : Option String
  limit : Option String

/-- `parseInt(s, 10)`, `NaN` as `none`; a whole number becomes a double. -/
def parseInt (s : String) : Option ℤ :=
  (Numeral.parseInt s.toList).map fun n => n.sign * number n.natAbs

/-- `Math.max(0, parseInt(params.get('page') ?? '0', 10))` -/
def pageOf (page : Option String) : Option ℕ :=
  (parseInt (page.getD "0")).map fun n => (max 0 n).toNat

/-- `Math.min(200, Math.max(1, parseInt(params.get('limit') ?? '50', 10)))` -/
def limitOf (limit : Option String) : Option ℕ :=
  (parseInt (limit.getD "50")).map fun n => (min 200 (max 1 n)).toNat

/-- A text that is there and not empty. -/
def truthy (s : Option String) : Option String := s.filter (· ≠ "")

/-- `LIMIT` and `OFFSET` take what a 64-bit integer can hold; `NaN` they refuse. -/
def rowCount (n : Option ℕ) : Option ℕ := n.filter (· < 2 ^ 63)

/-- The rows of the answer, unless the statement fails. -/
def handlePoolOptions (poolAddress : String) (params : SearchParams) (db : Database) :
    Option (List OptionRow) :=
  match truthy params.writer, truthy params.buyer with
  | some writer, _ => some (db.getOptionsByWriter poolAddress writer)
  | none, some buyer => some (db.getOptionsByBuyer poolAddress buyer)
  | none, none => do
    let limit ← rowCount (limitOf params.limit)
    let offset ← rowCount ((pageOf params.page).map fun page => number (page * limit))
    match params.status with
    | some status =>
      return db.getOptionsByPool poolAddress (some (parseInt status)) limit offset
    | none => return db.getOptionsByPool poolAddress none limit offset

/-- An answer of the API; a body that is `none` is that of a failed statement. -/
inductive Answer
  | options (rows : Option (List OptionRow))
  | option (row : OptionRow)
  | transfers (rows : List OptionTransferRow)
  | notFound (error : String)
  | badRequest (error : String)
  deriving DecidableEq

/-- `([^/]+)` -/
def isSegment (s : String) : Bool := s ≠ ""

/-- `(\d+)` -/
def isNumeral (s : String) : Bool := s ≠ "" && s.toList.all Char.isDigit

/-- The routes for options and transfers; the path comes in its segments. -/
def route (path : List String) (params : SearchParams) (db : D1Database) : Option Answer :=
  match path with
  | ["", "pools", address, "options"] =>
    if isSegment address then some (.options (handlePoolOptions address params db.toDatabase))
    else none
  | ["", "pools", address, "options", id, "transfers"] =>
    if isSegment address ∧ isNumeral id then
      match parseInt id with
      | none => some (.badRequest "Invalid option ID")
      | some optionId => some (.transfers (db.getTransfersByOption address optionId.toNat))
    else none
  | ["", "pools", address, "options", id] =>
    if isSegment address ∧ isNumeral id then
      match parseInt id with
      | none => some (.badRequest "Invalid option ID")
      | some optionId =>
        match db.getOption address optionId.toNat with
        | some row => some (.option row)
        | none => some (.notFound "Option not found")
    else none
  | ["", "user", address, "options"] =>
    if isSegment address then some (.options (some (db.getOptionsByUser address))) else none
  | ["", "user", address, "transfers"] =>
    if isSegment address then some (.transfers (db.getTransfersByUser address)) else none
  | _ => none

/-- The segments of `url.pathname.replace(/\/$/, '')`. -/
def segments (pathname : String) : List String :=
  let path := pathname.toList
  ((if path.getLast? = some '/' then path.dropLast else path).splitOn '/').map String.ofList

/-! ### Sorted rows -/

section

variable {db : Database} {rows : List OptionRow} {pool : String}

/-- What is in order already keeps its order when the rest is sorted in. -/
lemma filter_insertionSort {A : Type*} {r : A → A → Prop} [DecidableRel r] {q : A → Bool}
    {l : List A} (h : (l.filter q).Pairwise r) :
    (l.insertionSort r).filter q = l.filter q := by
  have hsub := (List.sublist_insertionSort h List.filter_sublist).filter q
  rw [List.filter_filter, List.filter_congr fun a _ => Bool.and_self (q a)] at hsub
  have hlength := ((List.perm_insertionSort r l).filter q).length_eq
  exact (hsub.eq_of_length hlength.symm).symm

/-- Rows that mirror a pool are in the order of the ids. -/
lemma Mirrors.pairwise {p : PoolStorage} (h : Mirrors pool p rows) :
    rows.Pairwise fun a b => a.optionId ≤ b.optionId := by
  rw [List.pairwise_iff_getElem]
  intro i j hi hj hlt
  rw [(h.shows i _ (List.getElem?_eq_getElem hi)).optionId,
    (h.shows j _ (List.getElem?_eq_getElem hj)).optionId]
  exact hlt.le

lemma Mirrors.byOptionId {p : PoolStorage} (h : Mirrors pool p rows) :
    Database.byOptionId rows = rows := h.pairwise.insertionSort_eq

end

/-! ### Numbers in a URL -/

lemma parseInt_toString {n : ℕ} (h : n < 2 ^ 53) : parseInt (toString n) = some (n : ℤ) := by
  have htext : (toString n).toList = (Numeral.Digits.ofNat n).chars := Nat.toList_repr
  rw [parseInt, htext, Numeral.parseInt_ofNat, Option.map_some, Int.natAbs_natCast,
    number_of_lt h]
  rcases Nat.eq_zero_or_pos n with rfl | hpos
  · rfl
  · rw [Int.sign_eq_one_of_pos (by exact_mod_cast hpos), one_mul]

lemma pageOf_toString {n : ℕ} (h : n < 2 ^ 53) : pageOf (some (toString n)) = some n := by
  rw [pageOf, Option.getD_some, parseInt_toString h, Option.map_some]
  simp

lemma limitOf_toString {n : ℕ} (h : n < 2 ^ 53) :
    limitOf (some (toString n)) = some (min 200 (max 1 n)) := by
  rw [limitOf, Option.getD_some, parseInt_toString h, Option.map_some]
  refine congrArg some ?_
  omega

lemma rowCount_of_lt {n : ℕ} (h : n < 2 ^ 63) : rowCount (some n) = some n := by
  rw [rowCount, Option.filter_some, if_pos (decide_eq_true h)]

/-! ### Paths -/

lemma isNumeral_toString (n : ℕ) : isNumeral (toString n) = true := by
  have htext : (toString n).toList = Nat.toDigits 10 n := Nat.toList_repr
  have hne : toString n ≠ "" := by
    intro heq
    rw [heq] at htext
    exact Nat.toDigits_ne_nil htext.symm
  rw [isNumeral, htext, Bool.and_eq_true, decide_eq_true_eq, List.all_eq_true]
  exact ⟨hne, fun c hc => Nat.isDigit_of_mem_toDigits (by decide) (by decide) hc⟩

/-- A path that does not end in a slash is cut at its slashes. -/
lemma segments_eq {pathname : String} (h : pathname.toList.getLast? ≠ some '/') :
    segments pathname = (pathname.toList.splitOn '/').map String.ofList := by
  rw [segments]
  simp [h]

end Frogop.Indexer
