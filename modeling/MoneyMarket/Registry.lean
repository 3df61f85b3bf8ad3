import MoneyMarket.Name

/-! # Registries

A registry holds at most one value under each name. Its entries stand in
ascending order of their names, so two registries that hold the same values
under the same names are equal, and sums over a registry are sums over a list.
-/

namespace MoneyMarket

/-- A finite map from names to values. -/
@[ext]
structure Registry (ι α : Type) [Name ι] where
  entries : List (ι × α)
  ascending : entries.Pairwise fun a b => Name.Before a.1 b.1

namespace Registry

open Name

variable {ι α β : Type} [Name ι] [DecidableEq ι]

instance [DecidableEq α] : DecidableEq (Registry ι α) := fun r s =>
  decidable_of_iff (r.entries = s.entries) Registry.ext_iff.symm

def empty : Registry ι α := ⟨[], List.Pairwise.nil⟩

instance : EmptyCollection (Registry ι α) := ⟨empty⟩
instance : Inhabited (Registry ι α) := ⟨empty⟩

def isEmpty (r : Registry ι α) : Bool := r.entries.isEmpty

def size (r : Registry ι α) : Nat := r.entries.length

def keys (r : Registry ι α) : List ι := r.entries.map Prod.fst

def values (r : Registry ι α) : List α := r.entries.map Prod.snd

/-- The value under a name. -/
def get? (r : Registry ι α) (k : ι) : Option α :=
  (r.entries.find? fun e => e.1 = k).map Prod.snd

/-- The value under a name, or a default. -/
def getD (r : Registry ι α) (k : ι) (default : α) : α := (r.get? k).getD default

def contains (r : Registry ι α) (k : ι) : Bool := (r.get? k).isSome

/-- Puts a value into ascending entries, in place of one under the same name. -/
def insertEntry (k : ι) (v : α) : List (ι × α) → List (ι × α)
  | [] => [(k, v)]
  | e :: rest =>
    if Before k e.1 then (k, v) :: e :: rest
    else if k = e.1 then (k, v) :: rest
    else e :: insertEntry k v rest

theorem mem_insertEntry {k : ι} {v : α} {e : ι × α} {entries : List (ι × α)}
    (he : e ∈ insertEntry k v entries) : e = (k, v) ∨ e ∈ entries := by
  induction entries with
  | nil => simpa [insertEntry] using he
  | cons e' rest ih =>
    rw [insertEntry] at he
    split at he
    · simpa using he
    · split at he
      · rcases List.mem_cons.mp he with he | he
        · exact Or.inl he
        · exact Or.inr (List.mem_cons_of_mem _ he)
      · rcases List.mem_cons.mp he with he | he
        · exact Or.inr (he ▸ List.mem_cons_self)
        · exact (ih he).imp_right (List.mem_cons_of_mem _)

theorem pairwise_insertEntry {k : ι} {v : α} {entries : List (ι × α)}
    (hentries : entries.Pairwise fun a b => Before a.1 b.1) :
    (insertEntry k v entries).Pairwise fun a b => Before a.1 b.1 := by
  induction entries with
  | nil => simp [insertEntry]
  | cons e rest ih =>
    obtain ⟨he, hrest⟩ := List.pairwise_cons.mp hentries
    rw [insertEntry]
    split
    next hk =>
      refine List.pairwise_cons.mpr ⟨fun d hd => ?_, hentries⟩
      rcases List.mem_cons.mp hd with rfl | hd
      · exact hk
      · exact hk.trans (he d hd)
    next hk =>
      split
      next heq =>
        refine List.pairwise_cons.mpr ⟨fun d hd => ?_, hrest⟩
        exact heq ▸ he d hd
      next hne =>
        refine List.pairwise_cons.mpr ⟨fun d hd => ?_, ih hrest⟩
        rcases mem_insertEntry hd with rfl | hd
        · exact before_of_not_before hk hne
        · exact he d hd

/-- The registry with a value under a name, in place of any value there was. -/
def insert (r : Registry ι α) (k : ι) (v : α) : Registry ι α :=
  ⟨insertEntry k v r.entries, pairwise_insertEntry r.ascending⟩

/-- The registry with nothing under a name. -/
def erase (r : Registry ι α) (k : ι) : Registry ι α :=
  ⟨r.entries.filter fun e => e.1 ≠ k, r.ascending.filter _⟩

/-- Changes all values and drops the entries whose value changes to nothing. -/
def filterMap (f : α → Option β) (r : Registry ι α) : Registry ι β where
  entries := r.entries.filterMap fun e => (f e.2).map (e.1, ·)
  ascending := by
    refine r.ascending.filterMap _ fun a b hab c hc d hd => ?_
    obtain ⟨v, -, rfl⟩ := Option.map_eq_some_iff.mp hc
    obtain ⟨w, -, rfl⟩ := Option.map_eq_some_iff.mp hd
    exact hab

/-- Puts values in one after the other; a later one replaces an earlier one
under the same name. -/
def ofList (entries : List (ι × α)) : Registry ι α :=
  entries.foldl (fun r e => r.insert e.1 e.2) empty

@[simp]
theorem get?_empty (k : ι) : (empty : Registry ι α).get? k = none := rfl

theorem find?_insertEntry (k k' : ι) (v : α) {entries : List (ι × α)}
    (hentries : entries.Pairwise fun a b => Before a.1 b.1) :
    ((insertEntry k v entries).find? fun e => e.1 = k') =
      if k = k' then some (k, v) else entries.find? fun e => e.1 = k' := by
  induction entries with
  | nil => by_cases hk : k = k' <;> simp [insertEntry, hk]
  | cons e rest ih =>
    obtain ⟨he, hrest⟩ := List.pairwise_cons.mp hentries
    rw [insertEntry]
    split
    next hbefore =>
      by_cases hk : k = k' <;> simp [hk]
    next hbefore =>
      split
      next heq =>
        by_cases hk : k = k'
        · simp [hk]
        · have hek : e.1 ≠ k' := fun h => hk (heq.trans h)
          simp [hk, hek]
      next hne =>
        by_cases hek : e.1 = k'
        · have hk : k ≠ k' := fun h => hne (h.trans hek.symm)
          simp [hek, hk]
        · simp [hek, ih hrest]

theorem get?_insert (r : Registry ι α) (k k' : ι) (v : α) :
    (r.insert k v).get? k' = if k = k' then some v else r.get? k' := by
  simp only [get?, insert, find?_insertEntry k k' v r.ascending]
  split <;> rfl

@[simp]
theorem get?_insert_self (r : Registry ι α) (k : ι) (v : α) : (r.insert k v).get? k = some v := by
  simp [get?_insert]

theorem get?_insert_of_ne (r : Registry ι α) {k k' : ι} (v : α) (hne : k ≠ k') :
    (r.insert k v).get? k' = r.get? k' := by
  simp [get?_insert, hne]

theorem get?_erase (r : Registry ι α) (k k' : ι) :
    (r.erase k).get? k' = if k = k' then none else r.get? k' := by
  simp only [get?, erase]
  induction r.entries with
  | nil => simp
  | cons e rest ih =>
    by_cases hek : e.1 = k
    · by_cases hk : k = k'
      · simp [hek, hk]
      · have hek' : e.1 ≠ k' := fun h => hk (hek.symm.trans h)
        simpa [hek, hk, hek'] using ih
    · by_cases hek' : e.1 = k'
      · have hk : k ≠ k' := fun h => hek (hek'.trans h.symm)
        simp [hek', hk, Ne.symm hk]
      · simpa [hek, hek'] using ih

@[simp]
theorem get?_erase_self (r : Registry ι α) (k : ι) : (r.erase k).get? k = none := by
  simp [get?_erase]

theorem get?_erase_of_ne (r : Registry ι α) {k k' : ι} (hne : k ≠ k') :
    (r.erase k).get? k' = r.get? k' := by
  simp [get?_erase, hne]

end Registry

end MoneyMarket
