import Telemetry.Proofs.Meter.Registration

/-!
Identities as a normal form: whoever names a meter, with its tags in whatever order, gives the same
identity, and the registry finds the same meter.

Proved here:

* `MeterId.carries_create`: tags are in strictly ascending order of their keys, and are read back as
  the mapping that they were made from;
* `MeterId.key_create_iff`: the key of an identity says its name and mapping of tags, and nothing
  else;
* `MeterSession.get?_key_create_iff`: in every run a key leads to the meter of that name and
  mapping;
* `MeterId.create_canonical`: all of it for the identities that are made.
-/

namespace Telemetry

namespace MeterId

/-! ## Tags in order -/

/-- The tags of an identity are those of a mapping: its pairs in strictly ascending order of their
keys, which no other arrangement has, and read back as the mapping in that order. -/
structure Carries (id : MeterId) (tags : OrderedMap String String) : Prop where
  ascending : id.tags.Pairwise fun a b => Text.points a.1 < Text.points b.1
  only : ∀ ps, ps = id.tags ↔
    ps.Perm tags.entries ∧ ps.Pairwise fun a b => Text.points a.1 ≤ Text.points b.1
  get?_tagMap : ∀ k, id.tagMap.get? k = tags.get? k
  entries_tagMap : id.tagMap.entries = id.tags

theorem sortTags_strict (tags : OrderedMap String String) :
    (sortTags tags).Pairwise fun a b => Text.points a.1 < Text.points b.1 := by
  have hascending := (eq_sortTags_iff.mp (Eq.refl (sortTags tags))).2
  have hdistinct := List.pairwise_map.mp (nodup_sortTags tags)
  refine (hascending.and hdistinct).imp fun {a b} hab => ?_
  exact lt_of_le_of_ne hab.1 fun heq => hab.2 (Text.points_injective heq)

theorem carries_create (name : String) (tags : OrderedMap String String)
    (description : Option String) (type : MeterType) :
    (create name tags description type).Carries tags where
  ascending := sortTags_strict tags
  only _ := eq_sortTags_iff
  get?_tagMap := get?_ofList_sortTags
  entries_tagMap := OrderedMap.entries_ofList (nodup_sortTags tags)

/-! ## Identities and keys -/

variable {name name' : String} {tags other : OrderedMap String String}
  {description description' : Option String} {type type' : MeterType}

theorem create_eq_iff :
    create name tags description type = create name other description type ↔
      ∀ k, tags.get? k = other.get? k := by
  rw [← sortTags_eq_iff]
  simp only [create, mk.injEq, true_and, and_true]

theorem key_create_iff :
    Registry.key (create name tags description type) =
        Registry.key (create name' other description' type') ↔
      name = name' ∧ ∀ k, tags.get? k = other.get? k := by
  rw [← sortTags_eq_iff, Registry.key, Registry.key, Prod.mk.injEq]
  rfl

end MeterId

/-- A key leads to the registered meter that has this name and mapping of tags. -/
theorem MeterSession.get?_key_create_iff (calls : List SessionCall) (name : String)
    (tags : OrderedMap String String) (description : Option String) (type : MeterType)
    (handle : MeterHandle) :
    (applyAll calls {}).registry.registered.get?
        (Registry.key (.create name tags description type)) = some handle ↔
      handle ∈ (applyAll calls {}).registry.handles ∧
      ∃ m, (applyAll calls {}).registry.meter? handle = some m ∧ m.id.Names name tags := by
  constructor
  · intro hget
    obtain ⟨m, hm, hkey⟩ := (kept_run calls).keyed _ _ hget
    exact ⟨Registry.mem_handles_iff.mpr ⟨_, hget⟩, m, hm, (key_iff_run calls name tags hm).mp hkey⟩
  · rintro ⟨hmem, m, hm, hnames⟩
    have hget := (kept_run calls).get?_key hmem hm
    rwa [(key_iff_run calls name tags hm).mpr hnames] at hget

namespace MeterId

/-- **Identity.** An identity carries its mapping of tags in strictly ascending order; identities of
one name, description and type are equal exactly if their mappings are; and the key in the registry
depends on the name and the mapping alone, so that in every run it leads to the meter with these. -/
theorem create_canonical :
    (∀ name tags description type, (create name tags description type).Carries tags) ∧
    (∀ name tags other description type,
      create name tags description type = create name other description type ↔
        ∀ k, tags.get? k = other.get? k) ∧
    (∀ name name' tags other description description' type type',
      Registry.key (create name tags description type) =
          Registry.key (create name' other description' type') ↔
        name = name' ∧ ∀ k, tags.get? k = other.get? k) ∧
    ∀ calls name tags description type handle,
      (MeterSession.applyAll calls {}).registry.registered.get?
          (Registry.key (create name tags description type)) = some handle ↔
        handle ∈ (MeterSession.applyAll calls {}).registry.handles ∧
        ∃ m, (MeterSession.applyAll calls {}).registry.meter? handle = some m ∧
          m.id.Names name tags :=
  ⟨carries_create, fun _ _ _ _ _ => create_eq_iff, fun _ _ _ _ _ _ _ _ => key_create_iff,
    MeterSession.get?_key_create_iff⟩

end MeterId
end Telemetry
