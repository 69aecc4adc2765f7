import Mathlib.Data.List.DropRight
import Telemetry.Proofs.Decimal.Numeral
import Telemetry.Proofs.Rounding

/-!
Short decimals, as percentages have them in the names of their series: the number is rounded to so
many places, and zeros at the end of the fraction are left out.

Proved here:

* `RoundsTo.unique`, `roundsTo_scaled`: what a number is rounded to;
* `canonical_ofParts`, `magnitude_ofParts`: the numeral of a number of decimal parts;
* `shortFixed_eq_strip`: that text is also the one of all places without the zeros at its end, and
  then without a point there;
* `shortFixed_shows`: it shows the number rounded, and no shorter text does.
-/

namespace Telemetry

/-- The exact value of a finite number. -/
def Binary64.value (x : Binary64) : ℚ := x.rank / unitsPerOne

namespace Decimal

/-! ## Rounding to places -/

/-- One number is another rounded to so many decimal places, a half going to the even digit. -/
def RoundsTo (places : Nat) (q r : ℚ) : Prop :=
  ∃ n : ℤ, IsNearestEven (q * tenTo places) n ∧ r = n / tenTo places

section Rounding

variable {places : Nat} {q r s : ℚ}

theorem RoundsTo.unique (hr : RoundsTo places q r) (hs : RoundsTo places q s) : r = s := by
  obtain ⟨n, hn, rfl⟩ := hr
  obtain ⟨m, hm, rfl⟩ := hs
  rw [hn.unique hm]

theorem RoundsTo.neg (h : RoundsTo places q r) : RoundsTo places (-q) (-r) := by
  obtain ⟨n, hn, rfl⟩ := h
  refine ⟨-n, ?_, ?_⟩
  · rw [neg_mul]
    exact hn.neg
  · rw [Int.cast_neg, neg_div]

theorem roundsTo_scaled (places units : Nat) :
    RoundsTo places (units / unitsPerOne) (scaled places units / tenTo places) := by
  refine ⟨scaled places units, ?_, by rw [Int.cast_natCast]⟩
  have hnearest := isNearestEven_roundHalfEven (units * tenTo places) unitsPerOne_pos
  rwa [Nat.cast_mul, mul_div_right_comm] at hnearest

end Rounding

/-! ## The numeral of small parts -/

theorem isDigit_dropZeros {cs : List Char} (h : ∀ c ∈ cs, c.isDigit = true) :
    ∀ c ∈ dropZeros cs, c.isDigit = true :=
  fun c hc => h c ((List.rdropWhile_prefix (· = '0') (l := cs)).subset hc)

theorem exists_eq_dropZeros_append (cs : List Char) :
    ∃ k, cs = dropZeros cs ++ List.replicate k '0' := by
  refine ⟨(cs.rtakeWhile (· = '0')).length, ?_⟩
  have hzeros : cs.rtakeWhile (· = '0') = List.replicate (cs.rtakeWhile (· = '0')).length '0' :=
    List.eq_replicate_iff.mpr ⟨rfl, fun c hc =>
      of_decide_eq_true (List.mem_rtakeWhile_imp (p := (· = '0')) hc)⟩
  rw [← hzeros]
  exact List.rdropWhile_append_rtakeWhile.symm

theorem getLast?_dropZeros (cs : List Char) : (dropZeros cs).getLast? ≠ some '0' := by
  intro h
  have hne : dropZeros cs ≠ [] := fun hnil => by simp [hnil] at h
  rw [List.getLast?_eq_some_getLast hne, Option.some.injEq] at h
  exact List.rdropWhile_last_not (· = '0') cs hne (decide_eq_true h)

/-- The numeral of `n` parts of `10^-places` each. -/
def ofParts (negative : Bool) (places n : Nat) : Numeral where
  negative := negative
  whole := natural (n / tenTo places)
  fraction := dropZeros (padded places (n % tenTo places))
  whole_ne_nil := Nat.toDigits_ne_nil
  isDigit c hc := by
    rcases List.mem_append.mp hc with hc | hc
    · exact isDigit_of_mem_natural hc
    · exact isDigit_dropZeros (fun c hc => isDigit_of_mem_padded hc) c hc

section Parts

variable (negative : Bool) (places n : Nat)

theorem text_ofParts :
    (ofParts negative places n).text = Numeral.signed negative (ofScaled places n) := rfl

theorem canonical_ofParts : (ofParts negative places n).Canonical where
  leading h := by
    by_cases hzero : n / tenTo places = 0
    · show natural (n / tenTo places) = ['0']
      rw [hzero]
      rfl
    · exact absurd h (head?_natural (Nat.pos_of_ne_zero hzero))
  trailing := getLast?_dropZeros _

theorem length_fraction_ofParts : (ofParts negative places n).fraction.length ≤ places := by
  have hlength := (List.rdropWhile_prefix (· = '0')
    (l := padded places (n % tenTo places))).length_le
  rwa [padded_length] at hlength

theorem magnitude_ofParts : (ofParts negative places n).magnitude = n / tenTo places := by
  obtain ⟨k, hk⟩ := exists_eq_dropZeros_append (padded places (n % tenTo places))
  have hlength := congrArg List.length hk
  rw [padded_length, List.length_append, List.length_replicate] at hlength
  have hunits : (ofParts negative places n).units * tenTo k = n := by
    have hvalue := ofDigitChars_append_eq (natural (n / tenTo places))
      (padded places (n % tenTo places))
    rw [padded_length, ofDigitChars_padded (Nat.mod_lt n (tenTo_pos places)), natural,
      Nat.ofDigitChars_ten_toDigits, Nat.div_add_mod', hk, ← List.append_assoc,
      Nat.ofDigitChars_append, Nat.ofDigitChars_replicate_zero, Nat.mul_comm] at hvalue
    exact hvalue
  have hk0 : (tenTo k : ℚ) ≠ 0 := Nat.cast_ne_zero.mpr (Nat.ne_of_gt (tenTo_pos k))
  rw [Numeral.magnitude, ← mul_div_mul_right _ _ hk0]
  norm_cast
  rw [hunits, ← tenTo_add]
  exact congrArg (fun m : Nat => (n : ℚ) / tenTo m) hlength.symm

end Parts

/-! ## Two passes -/

/-- The text of `x` with all of its places. -/
def fixed (places : Nat) : Binary64 → List Char
  | .nan => ['n', 'a', 'n']
  | .infinite negative => Numeral.signed negative ['i', 'n', 'f']
  | .finite negative m =>
    let n := scaled places m.val
    Numeral.signed negative (natural (n / tenTo places) ++ '.' :: padded places (n % tenTo places))

/-- A text without the zeros at its end, and then without a point there. -/
def strip (text : List Char) : List Char :=
  (text.rdropWhile (· = '0')).rdropWhile (· = '.')

theorem rdropWhile_append_cons {p : Char → Bool} {mark : Char} (hmark : p mark = false)
    (cs ds : List Char) :
    (cs ++ mark :: ds).rdropWhile p = cs ++ mark :: ds.rdropWhile p := by
  induction ds using List.reverseRecOn with
  | nil => rw [List.rdropWhile_concat_neg _ _ _ (by simp [hmark]), List.rdropWhile_nil]
  | append_singleton ds d ih =>
    rw [← List.cons_append, ← List.append_assoc]
    by_cases hd : p d = true
    · rw [List.rdropWhile_concat_pos _ _ _ hd, List.rdropWhile_concat_pos _ _ _ hd, ih]
    · rw [List.rdropWhile_concat_neg _ _ _ hd, List.rdropWhile_concat_neg _ _ _ hd,
        List.append_assoc, List.cons_append]

theorem Numeral.signed_append (negative : Bool) (cs ds : List Char) :
    signed negative (cs ++ ds) = signed negative cs ++ ds := by
  cases negative <;> rfl

theorem Numeral.exists_text_eq_concat (d : Numeral) :
    ∃ cs c, d.text = cs ++ [c] ∧ c.isDigit = true := by
  by_cases hnil : d.fraction = []
  · obtain ⟨cs, c, hlast⟩ := (List.eq_nil_or_concat d.whole).resolve_left d.whole_ne_nil
    rw [List.concat_eq_append] at hlast
    refine ⟨signed d.negative cs, c, ?_, d.isDigit_whole c (by simp [hlast])⟩
    rw [text, hnil, pointed, if_pos rfl, List.append_nil, hlast, signed_append]
  · obtain ⟨cs, c, hlast⟩ := (List.eq_nil_or_concat d.fraction).resolve_left hnil
    rw [List.concat_eq_append] at hlast
    refine ⟨signed d.negative (d.whole ++ '.' :: cs), c, ?_, d.isDigit_fraction c (by simp [hlast])⟩
    rw [text, pointed, if_neg hnil, hlast, ← signed_append, List.append_assoc, List.cons_append]

theorem Numeral.rdropWhile_point_text (d : Numeral) : d.text.rdropWhile (· = '.') = d.text := by
  obtain ⟨cs, c, htext, hdigit⟩ := d.exists_text_eq_concat
  rw [htext]
  refine List.rdropWhile_concat_neg _ _ _ fun hpoint => ?_
  rw [of_decide_eq_true hpoint] at hdigit
  exact absurd hdigit (by decide)

theorem Numeral.rdropWhile_point (d : Numeral) :
    (signed d.negative d.whole ++ '.' :: d.fraction).rdropWhile (· = '.') = d.text := by
  have hkept := d.rdropWhile_point_text
  by_cases hnil : d.fraction = []
  · have htext : d.text = signed d.negative d.whole := by
      rw [text, hnil, pointed, if_pos rfl, List.append_nil]
    rw [hnil, List.rdropWhile_concat_pos _ _ _ (by decide), ← htext, hkept]
  · have htext : d.text = signed d.negative d.whole ++ '.' :: d.fraction := by
      rw [text, pointed, if_neg hnil, signed_append]
    rw [← htext, hkept]

/-- **Two passes.** The zeros are those of the fraction alone, as the point stops the first pass,
and the second pass takes the point exactly if no digit is left after it. -/
theorem shortFixed_eq_strip (places : Nat) (x : Binary64) :
    shortFixed places x = String.ofList (strip (fixed places x)) := by
  cases x with
  | nan => rfl
  | infinite negative => cases negative <;> rfl
  | finite negative m =>
    let d := ofParts negative places (scaled places m.val)
    have hzeros : (fixed places (.finite negative m)).rdropWhile (· = '0') =
        Numeral.signed d.negative d.whole ++ '.' :: d.fraction := by
      rw [fixed, Numeral.signed_append]
      exact rdropWhile_append_cons (by decide) _ _
    rw [strip, hzeros, d.rdropWhile_point]
    rfl

/-! ## What is shown -/

/-- A numeral that the short text of a number spells: with no zeros that could be left out, rounded
to so many places, the whole part with all of its digits, and as short as can be. -/
structure Shows (places : Nat) (x : Binary64) (d : Numeral) : Prop where
  text_eq : shortFixed places x = String.ofList d.text
  canonical : d.Canonical
  length_fraction : d.fraction.length ≤ places
  rounded : RoundsTo places x.value d.value
  whole_eq : d.whole = natural ⌊|d.value|⌋₊
  shortest : ∀ e : Numeral, e.negative = d.negative → e.value = d.value →
    d.text.length ≤ e.text.length

section Shown

variable {places : Nat} {s t : Bool} {m n : Magnitude}

theorem value_finite (negative : Bool) (m : Magnitude) :
    (Binary64.finite negative m).value =
      if negative then -((m.val : ℚ) / unitsPerOne) else (m.val : ℚ) / unitsPerOne := by
  cases negative
  · exact congrArg (· / (unitsPerOne : ℚ)) (Int.cast_natCast m.val)
  · rw [if_pos rfl, ← neg_div]
    refine congrArg (· / (unitsPerOne : ℚ)) ?_
    rw [Binary64.rank, if_pos rfl, Int.cast_neg, Int.cast_natCast]

theorem roundsTo_value (places : Nat) (negative : Bool) (m : Magnitude) :
    RoundsTo places (Binary64.finite negative m).value
      (ofParts negative places (scaled places m.val)).value := by
  have hrounds := roundsTo_scaled places m.val
  rw [value_finite, Numeral.value, magnitude_ofParts]
  cases negative
  · exact hrounds
  · exact hrounds.neg

theorem shows_ofParts (places : Nat) (negative : Bool) (m : Magnitude) :
    Shows places (.finite negative m) (ofParts negative places (scaled places m.val)) where
  text_eq := congrArg String.ofList (text_ofParts negative places _).symm
  canonical := canonical_ofParts _ _ _
  length_fraction := length_fraction_ofParts _ _ _
  rounded := roundsTo_value _ _ _
  whole_eq := (canonical_ofParts _ _ _).whole_eq
  shortest _ hsign hvalue :=
    (canonical_ofParts _ _ _).length_text_le hsign.symm hvalue.symm

/-- Texts agree exactly for numbers of one sign that are rounded to one number. -/
theorem shortFixed_eq_iff :
    shortFixed places (.finite s m) = shortFixed places (.finite t n) ↔
      s = t ∧ ∃ r, RoundsTo places (Binary64.finite s m).value r ∧
        RoundsTo places (Binary64.finite t n).value r := by
  have hd := shows_ofParts places s m
  have he := shows_ofParts places t n
  rw [hd.text_eq, he.text_eq]
  constructor
  · intro h
    have heq := Numeral.text_injective (String.ofList_injective h)
    exact ⟨congrArg Numeral.negative heq, _, hd.rounded, heq ▸ he.rounded⟩
  · rintro ⟨hsign, r, hr, hr'⟩
    rw [hd.canonical.ext_of_value he.canonical hsign
      ((hd.rounded.unique hr).trans (hr'.unique he.rounded))]

end Shown

/-- **Short decimals.** The text of a finite number with at most so many places is its sign and the
canonical numeral of the number rounded, which no numeral beats in length; it is what two passes
leave of the text with all places; and numbers have the same text exactly if they have the same sign
and are rounded to the same number. -/
theorem shortFixed_shows (places : Nat) :
    (∀ negative m, ∃ d : Numeral, d.negative = negative ∧
      Shows places (.finite negative m) d) ∧
    (∀ x, shortFixed places x = String.ofList (strip (fixed places x))) ∧
    ∀ s t m n, shortFixed places (.finite s m) = shortFixed places (.finite t n) ↔
      s = t ∧ ∃ r, RoundsTo places (Binary64.finite s m).value r ∧
        RoundsTo places (Binary64.finite t n).value r :=
  ⟨fun negative m => ⟨_, rfl, shows_ofParts places negative m⟩, shortFixed_eq_strip places,
    fun _ _ _ _ => shortFixed_eq_iff⟩

example : shortFixed 4 (.ofRatio false unitsPerOne 32) = "0.0312" ∧
    shortFixed 4 (.ofRatio false (3 * unitsPerOne) 32) = "0.0938" ∧
    shortFixed 4 (.ofRatio true (100 * unitsPerOne) 1) = "-100" := by decide +kernel

end Decimal
end Telemetry
