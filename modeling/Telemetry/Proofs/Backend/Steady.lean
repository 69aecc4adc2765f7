import Telemetry.Proofs.Series.Building

/-!
A cache before a service that answers every call in the same way, whatever was called before.

Proved here:

* `populate_steady`, `ensure_steady`: a lookup is then a function of what the cache knows;
* `kindFor?_look`: a lookup has no effect on what another one finds, unless it asks for the same
  type under another kind;
* `foldl_look_perm`: hence lookups in any order leave the cache with the same knowledge.
-/

namespace Telemetry

variable {σ : Type}

/-- What a service answers, whenever it is called: its listing, if that succeeds, and the
descriptors that can be created. -/
structure ServiceAnswers where
  listing : Option (List (Value × MetricKind))
  accepts : MetricDescriptor → Bool

/-- A client whose service answers listings and creations in the same way in all states that its
calls lead to. -/
structure Client.Steady (client : Client σ) (scope : DescriptorScope) (P : σ → Prop)
    (answers : ServiceAnswers) : Prop where
  keeps : client.Keeps P
  list_eq : ∀ s, P s →
    (client.list scope.project scope.filter s).1.toOption = answers.listing
  create_eq : ∀ d s, P s → (client.create scope.project d s).1.isOk = answers.accepts d

/-! ## Knowledge -/

/-- What a cache knows: whether it is filled, and the kinds of its types. -/
@[ext] structure Knowledge where
  populated : Bool
  kind? : Value.Key → Option MetricKind

/-- Descriptors that do not disagree on the kind of a type. -/
def MetricDescriptor.Agrees (d e : MetricDescriptor) : Prop := d.type = e.type → d.kind = e.kind

instance (d e : MetricDescriptor) : Decidable (d.Agrees e) :=
  inferInstanceAs (Decidable (d.type = e.type → d.kind = e.kind))

namespace Knowledge

open DescriptorCache (lastListed?)

section Answers

variable (answers : ServiceAnswers)

/-- Knowledge with the listing, unless it is filled. A listing counts up to the first type that is
no key, and with one it does not fill the cache. -/
def fill (k : Knowledge) : Knowledge :=
  if k.populated then k
  else
    match answers.listing with
    | none => { k with populated := true }
    | some entries =>
      { populated := entries.all (·.1.key?.isSome)
        kind? := fun key =>
          (lastListed? key (entries.takeWhile (·.1.key?.isSome))).or (k.kind? key) }

/-- The kind of a key that is known by a creation. -/
def created (d : MetricDescriptor) (key : Value.Key) : Option MetricKind :=
  if answers.accepts d ∧ key = .text d.type then some d.kind else none

/-- Knowledge with the type of a descriptor, if it is filled. -/
def settle (k : Knowledge) (d : MetricDescriptor) : Knowledge :=
  if k.populated then { k with kind? := fun key => (k.kind? key).or (created answers d key) }
  else k

/-- Knowledge after a lookup. -/
def look (k : Knowledge) (d : MetricDescriptor) : Knowledge := (k.fill answers).settle answers d

/-- The kind that a lookup finds. -/
def kindFor? (k : Knowledge) (d : MetricDescriptor) : Option MetricKind :=
  if (k.fill answers).populated then
    some (((k.fill answers).kind? (.text d.type)).getD d.kind)
  else none

end Answers

variable {answers : ServiceAnswers}

theorem fill_of_populated {k : Knowledge} (h : k.populated = true) : k.fill answers = k := by
  rw [fill, if_pos h]

theorem fill_of_failed {k : Knowledge} (h : k.populated = false)
    (hlisting : answers.listing = none) : k.fill answers = { k with populated := true } := by
  rw [fill, if_neg (by simp [h]), hlisting]

theorem fill_of_listed {k : Knowledge} (h : k.populated = false)
    {entries : List (Value × MetricKind)} (hlisting : answers.listing = some entries) :
    k.fill answers =
      { populated := entries.all (·.1.key?.isSome)
        kind? := fun key =>
          (lastListed? key (entries.takeWhile (·.1.key?.isSome))).or (k.kind? key) } := by
  rw [fill, if_neg (by simp [h]), hlisting]

/-- Filling twice is filling once: a listing that does not fill adds the same types again. -/
theorem fill_fill (k : Knowledge) : (k.fill answers).fill answers = k.fill answers := by
  cases hpop : (k.fill answers).populated with
  | true => exact fill_of_populated hpop
  | false =>
    cases hk : k.populated with
    | true => rw [fill_of_populated hk, fill_of_populated hk]
    | false =>
      cases hlisting : answers.listing with
      | none => rw [fill_of_failed hk hlisting] at hpop; cases hpop
      | some entries =>
        rw [fill_of_listed hpop hlisting, fill_of_listed hk hlisting]
        simp only [← Option.or_assoc, Option.or_self]

@[simp] theorem populated_settle (k : Knowledge) (d : MetricDescriptor) :
    (k.settle answers d).populated = k.populated := by
  rw [settle]
  split <;> rfl

theorem fill_look (k : Knowledge) (d : MetricDescriptor) :
    (k.look answers d).fill answers = k.look answers d := by
  by_cases hpop : (k.fill answers).populated = true
  · rw [fill, if_pos (by rwa [look, populated_settle])]
  · rw [look, settle, if_neg hpop, fill_fill]

theorem look_of_none {k : Knowledge} {d : MetricDescriptor}
    (h : kindFor? answers k d = none) (e : MetricDescriptor) :
    (k.look answers d).look answers e = k.look answers d := by
  have hpop : ¬ (k.fill answers).populated = true := by
    intro hpop
    rw [kindFor?, if_pos hpop] at h
    cases h
  rw [look, fill_look, settle, if_neg (by rwa [look, populated_settle])]

theorem created_of_ne {d : MetricDescriptor} {key : Value.Key} (h : key ≠ .text d.type) :
    created answers d key = none := if_neg fun hcreated => h hcreated.2

theorem foldl_look_of_none {k : Knowledge} {d : MetricDescriptor}
    (h : kindFor? answers k d = none) (es : List MetricDescriptor) :
    es.foldl (look answers) (k.look answers d) = k.look answers d := by
  induction es with
  | nil => rfl
  | cons e rest ih => rw [List.foldl_cons, look_of_none h, ih]

theorem created_or_created {d e : MetricDescriptor} (h : d.Agrees e) (key : Value.Key) :
    (created answers d key).or (created answers e key) =
      (created answers e key).or (created answers d key) := by
  unfold created
  by_cases hd : answers.accepts d = true ∧ key = .text d.type
  · by_cases he : answers.accepts e = true ∧ key = .text e.type
    · have htype : d.type = e.type := Value.Key.text.inj (hd.2.symm.trans he.2)
      rw [if_pos hd, if_pos he, h htype]
    · rw [if_pos hd, if_neg he, Option.or_none, Option.none_or]
  · rw [if_neg hd, Option.or_none, Option.none_or]

/-- **Exchange.** Lookups of descriptors that agree can be exchanged. -/
theorem look_comm (k : Knowledge) {d e : MetricDescriptor} (h : d.Agrees e) :
    (k.look answers d).look answers e = (k.look answers e).look answers d := by
  have hlook (d e : MetricDescriptor) : (k.look answers d).look answers e =
      ((k.fill answers).settle answers d).settle answers e := by
    rw [look, fill_look, look]
  rw [hlook, hlook]
  generalize k.fill answers = filled
  by_cases hpop : filled.populated = true
  · simp only [settle, hpop, if_true, Option.or_assoc, created_or_created h]
  · have hsettle (d : MetricDescriptor) : filled.settle answers d = filled := if_neg hpop
    rw [hsettle, hsettle, hsettle]

theorem kindFor?_look (k : Knowledge) {d e : MetricDescriptor} (h : d.Agrees e) :
    (k.look answers d).kindFor? answers e = k.kindFor? answers e := by
  rw [kindFor?, fill_look, look, populated_settle, kindFor?]
  split
  · next hpop =>
    rw [settle, if_pos hpop]
    cases hkind : (k.fill answers).kind? (.text e.type) with
    | some kind => simp [hkind]
    | none =>
      simp only [hkind, Option.none_or, created]
      split
      · next hcreated =>
        have htype : e.type = d.type := Value.Key.text.inj hcreated.2
        rw [Option.getD_some, h htype.symm, Option.getD_none]
      · rfl
  · rfl

theorem kindFor?_foldl_look {ds : List MetricDescriptor} {e : MetricDescriptor}
    (h : ∀ d ∈ ds, d.Agrees e) (k : Knowledge) :
    (ds.foldl (look answers) k).kindFor? answers e = k.kindFor? answers e := by
  induction ds generalizing k with
  | nil => rfl
  | cons d rest ih =>
    rw [List.forall_mem_cons] at h
    rw [List.foldl_cons, ih h.2, kindFor?_look k h.1]

/-- **Lookups in any order** leave the same knowledge. -/
theorem foldl_look_perm {ds es : List MetricDescriptor} (h : ds.Perm es)
    (hagree : ∀ d ∈ ds, ∀ e ∈ ds, d.Agrees e) (k : Knowledge) :
    ds.foldl (look answers) k = es.foldl (look answers) k :=
  h.foldl_eq' (fun d hd e he k => look_comm k (hagree d hd e he)) k

end Knowledge

/-! ## Caches -/

namespace DescriptorCache

/-- What a cache knows. -/
def knowledge (cache : DescriptorCache) : Knowledge := ⟨cache.populated, cache.verified.get?⟩

section Steady

variable {client : Client σ} {scope : DescriptorScope} {P : σ → Prop} {answers : ServiceAnswers}
  (hsteady : client.Steady scope P answers) (d : MetricDescriptor) (cache : DescriptorCache)
  {s : σ} (h : P s)

include hsteady h

theorem populate_steady :
    let step := populate client scope cache s
    step.cache.knowledge = cache.knowledge.fill answers ∧
      step.outcome.isOk = step.cache.populated := by
  have hlisting := hsteady.list_eq s h
  cases hpop : cache.populated with
  | true =>
    rw [populate_of_populated client scope hpop, Knowledge.fill_of_populated hpop]
    exact ⟨rfl, hpop.symm⟩
  | false =>
    cases hlist : client.list scope.project scope.filter s with
    | mk outcome s' =>
      rw [hlist] at hlisting
      cases outcome with
      | error fault =>
        rw [populate_of_failed client scope hpop hlist,
          Knowledge.fill_of_failed hpop hlisting.symm]
        exact ⟨rfl, rfl⟩
      | ok listing =>
        have hlearned := learn_isOk listing cache
        cases hlearn : cache.learn listing with
        | mk outcome learned =>
          have hget := get?_learn hlearn
          rw [hlearn] at hlearned
          obtain ⟨hok, hkept⟩ := hlearned
          rw [Knowledge.fill_of_listed hpop hlisting.symm, populate, if_neg (by simp [hpop]),
            hlist]
          simp only [hlearn]
          cases outcome with
          | error fault =>
            have hunfilled : learned.populated = false := hkept.trans hpop
            exact ⟨Knowledge.ext (hunfilled.trans hok) (funext hget), hunfilled.symm⟩
          | ok _ => exact ⟨Knowledge.ext hok (funext hget), rfl⟩

theorem lookUp_steady (hpop : cache.populated = true) :
    let step := lookUp (create client scope d) d.type cache s
    step.cache.knowledge = cache.knowledge.settle answers d ∧
      step.outcome = .ok ((cache.get? d.type).getD d.kind) := by
  have haccepts := hsteady.create_eq d s h
  rw [Knowledge.settle, if_pos (show cache.knowledge.populated = true from hpop)]
  dsimp only
  rw [lookUp]
  cases hget : cache.get? d.type with
  | some kind =>
    have hknown : cache.verified.get? (.text d.type) = some kind := hget
    refine ⟨Knowledge.ext rfl (funext fun key => ?_), rfl⟩
    by_cases hkey : key = .text d.type
    · simp [knowledge, hkey, hknown]
    · simp [knowledge, Knowledge.created_of_ne hkey]
  | none =>
    have hmissing : cache.verified.get? (.text d.type) = none := hget
    cases hcreate : client.create scope.project d s with
    | mk outcome s' =>
      rw [hcreate] at haccepts
      dsimp only
      rw [create, hcreate]
      cases outcome with
      | error fault =>
        refine ⟨Knowledge.ext rfl (funext fun key => ?_), rfl⟩
        simp [Knowledge.created, ← haccepts, Except.isOk, Except.toBool, knowledge, notCreated]
      | ok _ =>
        dsimp only
        rw [settle_missing hget]
        refine ⟨Knowledge.ext rfl (funext fun key => ?_), rfl⟩
        by_cases hkey : key = .text d.type
        · simp [knowledge, hkey, hmissing, OrderedMap.get?_insert, Knowledge.created,
            ← haccepts, Except.isOk, Except.toBool]
        · simp [knowledge, hkey, OrderedMap.get?_insert, Knowledge.created_of_ne hkey]

/-- **Lookups before a steady service** are functions of what the cache knows. -/
theorem ensure_steady :
    let step := ensure client scope d cache s
    step.cache.knowledge = cache.knowledge.look answers d ∧
      step.outcome.toOption = cache.knowledge.kindFor? answers d := by
  have hfilled := populate_steady hsteady cache h
  have hkept := populate_keeps hsteady.keeps scope cache h
  dsimp only at hfilled ⊢
  rw [ensure, CacheStep.andThen, Knowledge.look, Knowledge.kindFor?, ← hfilled.1]
  generalize populate client scope cache s = filled at hfilled hkept ⊢
  obtain ⟨outcome, known, s', notices⟩ := filled
  cases outcome with
  | error fault =>
    have hpop : ¬ known.knowledge.populated = true := by
      rw [show known.knowledge.populated = false from hfilled.2.symm]
      exact Bool.false_ne_true
    rw [Knowledge.settle, if_neg hpop, if_neg hpop]
    exact ⟨rfl, rfl⟩
  | ok _ =>
    have hpop : known.populated = true := hfilled.2.symm
    obtain ⟨hsettled, houtcome⟩ := lookUp_steady hsteady d known hkept hpop
    refine ⟨hsettled, ?_⟩
    rw [if_pos (show known.knowledge.populated = true from hpop)]
    exact congrArg Except.toOption houtcome

end Steady

end DescriptorCache
end Telemetry
