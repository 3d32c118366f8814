import InventoryBot.Lib.Comparator
import Mathlib.Algebra.Order.Field.Rat
import Mathlib.Data.Rat.Floor
import Mathlib.Tactic.Linarith

/-!
# The platform below the bot

The bot runs on the Bkper client library and on the JavaScript runtime. Decimal
amounts (`Amount`, exact decimals whose `div` rounds) are rationals here, dates are
day numbers. `Platform` collects what the library and the runtime compute and the
repository does not show: the rounding of a quotient, of `Amount.round` and of the
conversion to a double, the text of a credit-note record, the number a text denotes,
the conversions between days and instants, and the sorting of an array. What the language
promises of sorting comes with it: nothing is lost, and by a consistent comparator the result is
the stable sorting. By another comparator the order is up to the runtime.

* `Platform.Exact`: amount and number arithmetic is exact rational arithmetic.
* `exactPlatform`: a concrete platform with exact arithmetic.
-/

namespace InventoryBot

open Lib

/-- A calendar day, counted from a fixed day. `getDateValue()` (`yyyyMMdd`) is
    order isomorphic to it, and the code only compares date values. -/
abbrev Date := ℤ

/-- A JavaScript number, as far as the comparator of `BotService` can see it. -/
inductive JsNumber where
  | nan
  | negInf
  | fin (q : ℚ)
  | posInf
  deriving DecidableEq

namespace JsNumber

/-- The `-` of two numbers. -/
def sub : JsNumber → JsNumber → JsNumber
  | fin a, fin b => fin (a - b)
  | nan, _ => nan
  | _, nan => nan
  | posInf, posInf => nan
  | negInf, negInf => nan
  | posInf, _ => posInf
  | negInf, _ => negInf
  | _, posInf => negInf
  | _, negInf => posInf

/-- `x > 0`; false on `NaN`, which `Array.prototype.sort` reads as `+0`. -/
def isPos : JsNumber → Bool
  | fin a => decide (0 < a)
  | posInf => true
  | _ => false

/-- What `Array.prototype.sort` reads from the result of a comparator. -/
def sign : JsNumber → Ordering
  | nan => .eq
  | negInf => .lt
  | fin q => if q < 0 then .lt else if 0 < q then .gt else .eq
  | posInf => .gt

@[simp] theorem sub_fin (a b : ℚ) : sub (fin a) (fin b) = fin (a - b) := rfl

@[simp] theorem isPos_fin (a : ℚ) : isPos (fin a) = decide (0 < a) := rfl

theorem isPos_iff {x : JsNumber} : x.isPos = true ↔ x.sign = .gt := by
  cases x with
  | fin q =>
    rw [isPos_fin, decide_eq_true_iff, sign]
    rcases lt_trichotomy q 0 with h | rfl | h
    · simp [h, h.le]
    · simp
    · simp [h, h.le]
  | _ => simp [isPos, sign]

theorem isPos_eq_false_iff {x : JsNumber} : x.isPos = false ↔ x.sign ≠ .gt := by
  rw [← Bool.not_eq_true, isPos_iff]

end JsNumber

/-- White space and line terminators of ECMAScript. -/
def isJsSpace (c : Char) : Bool :=
  [0x09, 0x0A, 0x0B, 0x0C, 0x0D, 0x20, 0xA0, 0x1680, 0x2028, 0x2029, 0x202F, 0x205F, 0x3000,
    0xFEFF].contains c.toNat || (0x2000 ≤ c.toNat && c.toNat ≤ 0x200A)

/-- `String.prototype.trim`. -/
def jsTrim (s : String) : String :=
  String.ofList ((s.toList.dropWhile isJsSpace).reverse.dropWhile isJsSpace).reverse

/-- What a function of the source throws. -/
inductive Exception where
  /-- a method of `undefined` or `null` is called -/
  | typeError
  /-- `BkperApp.newAmount` of a value that is no number -/
  | invalidAmount
  /-- `Amount.div` by zero -/
  | divisionByZero
  deriving DecidableEq

/-- A computation that returns has returned from its first part. -/
theorem bind_eq_ok {α β : Type} {x : Except Exception α} {f : α → Except Exception β} {b : β} :
    (x >>= f) = .ok b ↔ ∃ a, x = .ok a ∧ f a = .ok b := by
  cases x with
  | error e =>
    constructor
    · intro h; cases h
    · rintro ⟨a, h, _⟩; cases h
  | ok a =>
    constructor
    · intro h; exact ⟨a, rfl, h⟩
    · rintro ⟨a', h, hf⟩; cases h; exact hf

/-- The parts of the client library and of the runtime that the bot calls. -/
structure Platform where
  /-- `Amount.div`, for a divisor other than zero -/
  div : ℚ → ℚ → ℚ
  /-- `Amount.round` to a number of fraction digits -/
  round : ℚ → ℕ → ℚ
  /-- `Amount.toNumber`: the double nearest to an amount -/
  toNumber : ℚ → ℚ
  /-- `+` on numbers -/
  numberAdd : ℚ → ℚ → ℚ
  /-- `-` on numbers -/
  numberSub : ℚ → ℚ → ℚ
  /-- `BkperApp.newAmount` of an absent property: it throws, or makes some amount -/
  missingAmount : Option ℚ
  /-- `JSON.stringify({ quantity, amount })` -/
  creditNoteJson : ℚ → ℚ → String
  /-- the unary `+` on the text of an `order` property -/
  orderNumber : String → JsNumber
  /-- `Transaction.getDate()`: the ISO text of a day -/
  dateText : Date → String
  /-- `+(text.replaceAll('-', ''))`: `none` where that is `NaN` -/
  dateNumber : String → Option Date
  /-- `helper.parseDate(...).getTime()`: 13:00 on a day in the script's time zone -/
  instant : Date → ℤ
  /-- `Utilities.formatDate` of an instant in a book's time zone -/
  formatDate : ℤ → Date
  /-- `new Amount(text)`: `none` where it throws -/
  parseAmount : String → Option ℚ
  /-- `Book.parseDate(...).getTime()` in the client library of the webhook -/
  bookInstant : Date → ℤ
  /-- whether the webhook's `Book.getAccount` hands out one object for an account, however often
      it is called -/
  sharesAccounts : Bool
  /-- `Array.prototype.sort` with a comparator -/
  sort : {α : Type} → (α → α → JsNumber) → List α → List α
  /-- sorting neither loses nor repeats anything -/
  sort_perm : ∀ {α : Type} (comparefn : α → α → JsNumber) (l : List α),
    (sort comparefn l).Perm l
  /-- by a consistent comparator the result is sorted, with equal elements in their order -/
  sort_stable : ∀ {α : Type} (comparefn : α → α → JsNumber) (l : List α),
    ConsistentOn (fun a b => (comparefn a b).sign) l →
      StableSorting (fun a b => (comparefn a b).sign) l (sort comparefn l)

namespace Platform

variable (P : Platform)

/-- `BkperApp.newAmount` of an amount property. -/
def newAmount : Option ℚ → Except Exception ℚ
  | some q => .ok q
  | none => match P.missingAmount with
    | some q => .ok q
    | none => .error .invalidAmount

/-- `Amount.div`; big.js throws on a zero divisor. -/
def amountDiv (x y : ℚ) : Except Exception ℚ :=
  if y = 0 then .error .divisionByZero else .ok (P.div x y)

@[simp] theorem newAmount_some (q : ℚ) : P.newAmount (some q) = .ok q := rfl

theorem newAmount_returns_iff {q : Option ℚ} :
    (∃ x, P.newAmount q = .ok x) ↔ (q = none → P.missingAmount ≠ none) := by
  unfold newAmount
  cases q with
  | some q => simp
  | none => cases P.missingAmount <;> simp

theorem amountDiv_of_ne {x y : ℚ} (h : y ≠ 0) : P.amountDiv x y = .ok (P.div x y) := if_neg h

theorem amountDiv_eq_ok {x y q : ℚ} (h : P.amountDiv x y = .ok q) : q = P.div x y := by
  unfold amountDiv at h
  split at h
  · cases h
  · exact (Except.ok.inj h).symm

/-- `toNumber` keeps the sign of an amount. -/
def KeepsSign : Prop := ∀ x, 0 < P.toNumber x ↔ 0 < x

/-- Amounts and numbers are computed exactly. -/
structure Exact : Prop where
  div : ∀ x y, y ≠ 0 → P.div x y = x / y
  round_zero : ∀ d, P.round 0 d = 0
  toNumber : ∀ x, P.toNumber x = x
  numberAdd : ∀ x y, P.numberAdd x y = x + y
  numberSub : ∀ x y, P.numberSub x y = x - y

/-- Numbers are computed with the right sign: rounding to the nearest double does not cross zero. -/
structure KeepsOrder : Prop where
  keepsSign : P.KeepsSign
  toNumber_nonneg : ∀ x, 0 ≤ x → 0 ≤ P.toNumber x
  numberAdd_nonneg : ∀ x y, 0 ≤ x → 0 ≤ y → 0 ≤ P.numberAdd x y
  numberSub_nonpos : ∀ x y, x ≤ 0 → 0 ≤ y → P.numberSub x y ≤ 0

section Exact

variable {P}

theorem Exact.keepsSign (h : P.Exact) : P.KeepsSign := by
  intro x
  rw [h.toNumber]

theorem Exact.keepsOrder (h : P.Exact) : P.KeepsOrder where
  keepsSign := h.keepsSign
  toNumber_nonneg := fun x hx => (h.toNumber x).symm ▸ hx
  numberAdd_nonneg := fun x y hx hy => (h.numberAdd x y).symm ▸ add_nonneg hx hy
  numberSub_nonpos := fun x y hx hy => by
    rw [h.numberSub]
    exact sub_nonpos.2 (hx.trans hy)

end Exact

end Platform

/-- The sorting by insertion. -/
def insertionSorted {α : Type} (comparefn : α → α → JsNumber) (l : List α) : List α :=
  l.insertionSort fun a b => (comparefn a b).isPos = false

theorem insertionSorted_stable {α : Type} (comparefn : α → α → JsNumber) (l : List α)
    (h : ConsistentOn (fun a b => (comparefn a b).sign) l) :
    StableSorting (fun a b => (comparefn a b).sign) l (insertionSorted comparefn l) :=
  h.stableSorting_insertionSort fun _ _ _ _ => JsNumber.isPos_eq_false_iff

namespace Platform

variable {P : Platform}

/-- By a consistent comparator every runtime sorts as insertion does. -/
theorem sort_eq_insertionSorted {α : Type} {comparefn : α → α → JsNumber} {l : List α}
    (h : ConsistentOn (fun a b => (comparefn a b).sign) l) :
    P.sort comparefn l = insertionSorted comparefn l :=
  (P.sort_stable comparefn l h).unique h (insertionSorted_stable comparefn l h)

end Platform

/-- Rounding half away from zero to `d` digits, as big.js does by default. -/
def roundHalfUp (x : ℚ) (d : ℕ) : ℚ :=
  if 0 ≤ x then (⌊x * 10 ^ d + 1 / 2⌋ : ℚ) / 10 ^ d
  else -((⌊-x * 10 ^ d + 1 / 2⌋ : ℚ) / 10 ^ d)

/-- A platform with exact arithmetic and UTC days, on which concrete runs are computed. Texts of
    dates are left aside: every date has the text of its day number. It sorts by insertion. -/
def exactPlatform : Platform where
  div := (· / ·)
  round := roundHalfUp
  toNumber := id
  numberAdd := (· + ·)
  numberSub := (· - ·)
  missingAmount := none
  creditNoteJson := fun q a =>
    "\x7b\"quantity\":" ++ toString q ++ ",\"amount\":" ++ toString a ++ "\x7d"
  orderNumber := fun s => match s.toInt? with
    | some n => .fin n
    | none => .nan
  dateText := fun d => toString d
  dateNumber := fun s => s.toInt?
  instant := fun d => d * 86400000 + 46800000
  formatDate := fun t => t / 86400000
  parseAmount := fun s => s.toInt?.map (↑)
  bookInstant := fun d => d * 86400000
  sharesAccounts := false
  sort := insertionSorted
  sort_perm := fun _ l => List.perm_insertionSort _ l
  sort_stable := insertionSorted_stable

theorem exactPlatform_exact : exactPlatform.Exact where
  div := fun _ _ _ => rfl
  round_zero := by
    intro d
    show roundHalfUp 0 d = 0
    norm_num [roundHalfUp]
  toNumber := fun _ => rfl
  numberAdd := fun _ _ => rfl
  numberSub := fun _ _ => rfl

theorem exactPlatform_keepsSign : exactPlatform.KeepsSign := exactPlatform_exact.keepsSign

/-- The number that a text of decimal digits denotes. -/
def readDigits (s : String) : Option ℕ :=
  if s = "" then none
  else s.toList.foldlM
    (fun n c => if c.isDigit then some (10 * n + (c.toNat - '0'.toNat)) else none) 0

/-- The exact platform with a reader of decimal digits that the kernel can run. -/
def decimalPlatform : Platform :=
  { exactPlatform with
    orderNumber := fun s => match readDigits s with
      | some n => .fin n
      | none => .nan
    dateNumber := fun s => (readDigits s).map (↑)
    parseAmount := fun s => (readDigits s).map (↑) }

theorem decimalPlatform_exact : decimalPlatform.Exact :=
  ⟨exactPlatform_exact.div, exactPlatform_exact.round_zero, exactPlatform_exact.toNumber,
    exactPlatform_exact.numberAdd, exactPlatform_exact.numberSub⟩

end InventoryBot
