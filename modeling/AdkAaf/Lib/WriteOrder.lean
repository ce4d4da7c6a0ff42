/-! Files that are written through buffers in an order: what a file says of a history of
records refers to what the files below it say of the same records, and it is flushed only
when everything below it is. -/

set_option autoImplicit false

namespace AdkAaf.Lib.WriteOrder

variable {Id Item Record : Type}

/-- `contentOf` is what each file holds of a history, `below` whether the first file is
written before the second. A file covers no more records than the files below it hold. -/
def Covered (contentOf : List Record → Id → List Item) (below : Id → Id → Prop)
    (records : List Record) (contents : Id → List Item) (file : Id) : Prop :=
  ∃ flushed, flushed <+: records ∧ contents file <+: contentOf flushed file ∧
    ∀ lower, below lower file → contentOf flushed lower <+: contents lower

def Ordered (contentOf : List Record → Id → List Item) (below : Id → Id → Prop)
    (records : List Record) (contents : Id → List Item) : Prop :=
  ∀ file, Covered contentOf below records contents file

variable {contentOf : List Record → Id → List Item} {below : Id → Id → Prop}
  {records : List Record}

variable {file : Id}

theorem Covered.mono {old new : Id → List Item} (covered : Covered contentOf below records old file)
    (loses : new file <+: old file) (gain : ∀ lower, below lower file → old lower <+: new lower) :
    Covered contentOf below records new file := by
  obtain ⟨flushed, earlier, here, lower⟩ := covered
  refine ⟨flushed, earlier, loses.trans here, ?_⟩
  intro other under
  exact (lower other under).trans (gain other under)

theorem Covered.of_complete {contents : Id → List Item}
    (here : contents file <+: contentOf records file)
    (lower : ∀ other, below other file → contentOf records other <+: contents other) :
    Covered contentOf below records contents file :=
  ⟨records, List.prefix_rfl, here, lower⟩

theorem Ordered.more {contents : Id → List Item}
    (ordered : Ordered contentOf below records contents) (later : List Record) :
    Ordered contentOf below (records ++ later) contents := by
  intro file
  obtain ⟨flushed, earlier, rest⟩ := ordered file
  exact ⟨flushed, earlier.trans (List.prefix_append _ _), rest⟩

theorem Ordered.grow {old new : Id → List Item} (ordered : Ordered contentOf below records old)
    (here : Covered contentOf below records new file) (gains : old file <+: new file)
    (same : ∀ other, other ≠ file → new other = old other) :
    Ordered contentOf below records new := by
  intro other
  by_cases equal : other = file
  · exact equal ▸ here
  · refine (ordered other).mono (same other equal ▸ List.prefix_rfl) ?_
    intro lower _
    by_cases grown : lower = file
    · exact grown ▸ gains
    · exact same lower grown ▸ List.prefix_rfl

end AdkAaf.Lib.WriteOrder
