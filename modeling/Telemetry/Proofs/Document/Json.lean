import Mathlib.Data.List.TakeWhile
import Telemetry.Document.Json
import Telemetry.Value.Text

/-!
What reading a JSON document can give, and how it can fail.

Proved here:

* `Ends.bind`, `Ends.map`: how a computation in two steps may end;
* `Decimal.ofDigits_lt`: a number is below the power of ten of as many digits;
* `Json.ends_reading`: every value that is read can be shown, as its integers have few digits, and
  only the rules of the format and the digits of an integer refuse a document;
* `Json.ends_read_brace`: a document that a brace starts gives a map.
-/

namespace Telemetry

/-! ## Endings -/

section Endings

variable {ε α β : Type} {F : ε → Prop} {P : α → Prop} {Q : β → Prop} {x : Except ε α}

/-- How a computation may end: in failures of one kind and results of one kind. -/
def Ends (F : ε → Prop) (P : α → Prop) : Except ε α → Prop
  | .ok a => P a
  | .error why => F why

theorem Ends.bind {f : α → Except ε β} (hx : Ends F P x) (hf : ∀ a, P a → Ends F Q (f a)) :
    Ends F Q (x >>= f) := by
  cases x with
  | ok a => exact hf a hx
  | error why => exact hx

theorem Ends.map {f : α → β} (hx : Ends F P x) (hf : ∀ a, P a → Q (f a)) : Ends F Q (x.map f) := by
  cases x with
  | ok a => exact hf a hx
  | error why => exact hx

theorem Ends.imp {G : ε → Prop} {R : α → Prop} (hx : Ends F P x) (hF : ∀ why, F why → G why)
    (hP : ∀ a, P a → R a) : Ends G R x := by
  cases x with
  | ok a => exact hP a hx
  | error why => exact hF why hx

theorem Ends.eq_ok (hx : Ends F P x) : Ends F (fun a => x = .ok a) x := by
  cases x with
  | ok a => rfl
  | error why => exact hx

theorem map_eq_error_iff {f : α → β} {why : ε} : x.map f = .error why ↔ x = .error why := by
  cases x <;> simp [Except.map]

end Endings

/-! ## Integers -/

theorem Decimal.ofDigits_lt {ds : List Nat} (h : ∀ d ∈ ds, d < 10) :
    ofDigits ds < tenTo ds.length := by
  have hfold (n : Nat) :
      ds.foldl (fun n d => 10 * n + d) n < (n + 1) * tenTo ds.length := by
    induction ds generalizing n with
    | nil => simp [tenTo_zero]
    | cons d rest ih =>
      have hd := h d List.mem_cons_self
      calc
        rest.foldl (fun n d => 10 * n + d) (10 * n + d)
          < (10 * n + d + 1) * tenTo rest.length :=
            ih (fun e he => h e (List.mem_cons_of_mem _ he)) _
        _ ≤ (n + 1) * 10 * tenTo rest.length := Nat.mul_le_mul_right _ (by omega)
        _ = (n + 1) * tenTo (d :: rest).length := by
            rw [List.length_cons, tenTo_succ, Nat.mul_assoc, Nat.mul_comm 10]
  have hzero := hfold 0
  rwa [Nat.zero_add, Nat.one_mul] at hzero

theorem Text.toNat_of_isAsciiDigit {c : Char} (h : isAsciiDigit c = true) :
    c.toNat - '0'.toNat < 10 := by
  simp only [isAsciiDigit, Bool.and_eq_true, decide_eq_true_eq] at h
  have hlast : c.toNat ≤ '9'.toNat := h.2
  have hvalues : '0'.toNat = 48 ∧ '9'.toNat = 57 := by decide
  omega

namespace Decoded

/-- The failures of a reading that only the rules of the format and the digits of an integer
refuse. -/
def IsTextual : Unreadable → Prop
  | .malformed => True
  | .stopped fault => ∃ digits, fault = .integerTextTooLong digits

theorem ends_ofOption {α : Type} (read : Option α) :
    Ends IsTextual (fun _ => True) (ofOption read) := by
  cases read <;> trivial

theorem natural_lt {ds : List Char} (h : ∀ c ∈ ds, Text.isAsciiDigit c = true) :
    natural ds < tenTo ds.length := by
  have hvalues : ∀ d ∈ ds.map fun c => c.toNat - '0'.toNat, d < 10 := by
    intro d hd
    obtain ⟨c, hc, rfl⟩ := List.mem_map.mp hd
    exact Text.toNat_of_isAsciiDigit (h c hc)
  have hlt := Decimal.ofDigits_lt hvalues
  rwa [List.length_map] at hlt

/-- An integer of as many digits as are allowed can be shown. -/
theorem ends_integer (negative : Bool) {ds : List Char}
    (h : ∀ c ∈ ds, Text.isAsciiDigit c = true) :
    Ends IsTextual (fun n => (Value.int n).isShowable = true) (integer negative ds) := by
  rw [integer]
  split
  · exact ⟨_, rfl⟩
  · next hshort =>
    have hlt : natural ds < tenTo Decimal.integerDigitLimit :=
      Nat.lt_of_lt_of_le (natural_lt h) (tenTo_le (Nat.le_of_not_lt hshort))
    rw [Ends, Value.isShowable, decide_eq_true_eq]
    cases negative
    · exact hlt
    · simpa using hlt

end Decoded

/-! ## Values -/

theorem Value.entriesShowable_setEntry {k v : Value} {entries : List (Value × Value)}
    (hk : k.isShowable = true) (hv : v.isShowable = true) (h : entriesShowable entries = true) :
    entriesShowable (setEntry k v entries) = true := by
  induction entries with
  | nil => simp [setEntry, entriesShowable, hk, hv]
  | cons e rest ih =>
    rw [entriesShowable, Bool.and_eq_true, Bool.and_eq_true] at h
    rw [setEntry]
    split
    · simp [entriesShowable, h, hv]
    · simp [entriesShowable, h, ih h.2]

namespace Json

open Decoded

theorem isAsciiDigit_of_mem_digits {cs : List Char} {c : Char} (h : c ∈ (digits cs).1) :
    Text.isAsciiDigit c = true := List.mem_takeWhile_imp h

theorem ends_number (cs : List Char) :
    Ends IsTextual (fun r => r.1.isShowable = true) (number cs) := by
  fun_cases number cs with
  | case1 => trivial
  | case2 negative body _ all afterAll hall whole afterWhole hwhole =>
    have hdigits : ∀ c ∈ whole, Text.isAsciiDigit c = true := by
      split at hwhole
      · cases hwhole
        simp [show Text.isAsciiDigit '0' = true by decide]
      · cases hwhole
        have heq : (digits body).1 = all := congrArg Prod.fst hall
        exact heq ▸ fun _ => isAsciiDigit_of_mem_digits
    exact (ends_integer negative hdigits).map fun _ hn => hn
  | case3 => rfl

theorem ends_scalar (cs : List Char) :
    Ends IsTextual (fun r => r.1.isShowable = true) (scalar cs) := by
  rw [scalar]
  split
  · next r hword =>
    obtain ⟨w, hw, hrest⟩ := List.exists_of_findSome?_eq_some hword
    obtain ⟨rest, -, rfl⟩ := Option.map_eq_some_iff.mp hrest
    have hall : ∀ w ∈ words, w.2.isShowable = true := by decide
    exact hall w hw
  · exact ends_number cs

theorem ends_reading (fuel : Nat) :
    (∀ cs, Ends IsTextual (fun r => r.1.isShowable = true) (value fuel cs)) ∧
    (∀ cs, Ends IsTextual (fun r => Value.areShowable r.1 = true) (items fuel cs)) ∧
    ∀ entries cs, Value.entriesShowable entries = true →
      Ends IsTextual (fun r => Value.entriesShowable r.1 = true) (members fuel entries cs) := by
  induction fuel with
  | zero => exact ⟨fun _ => trivial, fun _ => trivial, fun _ _ _ => trivial⟩
  | succ fuel ih =>
    obtain ⟨hvalue, hitems, hmembers⟩ := ih
    refine ⟨fun cs => ?_, fun cs => ?_, fun entries cs hentries => ?_⟩
    · unfold value
      split
      · exact (ends_ofOption _).map fun _ _ => rfl
      · split
        · rfl
        · exact (hitems _).map fun _ hr => hr
      · split
        · rfl
        · exact (hmembers _ _ rfl).map fun _ hr => hr
      · exact ends_scalar _
    · unfold items
      refine (hvalue cs).bind fun (v, rest) hv => ?_
      dsimp only at hv ⊢
      split
      · simp [Ends, pure, Except.pure, Value.areShowable, hv]
      · refine (hitems _).bind fun (more, rest) hmore => ?_
        simp [Ends, pure, Except.pure, Value.areShowable, hv, hmore]
      · trivial
    · unfold members
      split
      · refine (ends_ofOption _).bind fun (key, rest) _ => ?_
        dsimp only
        split
        · refine (hvalue _).bind fun (v, rest) hv => ?_
          dsimp only at hv ⊢
          have hset := Value.entriesShowable_setEntry (k := .text key) rfl hv hentries
          split
          · exact hset
          · exact hmembers _ _ hset
          · trivial
        · trivial
      · trivial

theorem ends_value_brace (fuel : Nat) (rest : List Char) :
    Ends IsTextual (fun r => ∃ entries, r.1 = .map entries ∧ Value.entriesShowable entries = true)
      (value fuel ('\x7b' :: rest)) := by
  cases fuel with
  | zero => trivial
  | succ fuel =>
    rw [value]
    split
    · exact ⟨[], rfl, rfl⟩
    · exact ((ends_reading fuel).2.2 [] _ rfl).map fun r hr => ⟨r.1, rfl, hr⟩

/-- **A document that a brace starts** gives a map that can be shown, or is refused. -/
theorem ends_read_brace (rest : List Char) :
    Ends IsTextual (fun v => ∃ entries, v = .map entries ∧ Value.entriesShowable entries = true)
      (read (String.ofList ('\x7b' :: rest))) := by
  have hskip : skipSpace ('\x7b' :: rest) = '\x7b' :: rest :=
    List.dropWhile_cons_of_neg (by decide)
  rw [read, String.toList_ofList, hskip]
  refine (ends_value_brace _ rest).bind fun (v, rest) hv => ?_
  dsimp only at hv ⊢
  split
  · exact hv
  · trivial

end Json
end Telemetry
