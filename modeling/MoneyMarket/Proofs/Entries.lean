import Mathlib.Data.List.Sort
import MoneyMarket.Balances

/-! # Entries of registries

Entries stand in ascending order, so a registry is known by the values under
its names, and writing a value that is there already, or writing twice, is
writing once. Balances have no entries of zero as long as they are only set.
-/

namespace MoneyMarket

open Name

/-- Ascending lists of the same names are the same list. -/
theorem Name.eq_of_mem_iff {ι : Type} [Name ι] {names names' : List ι}
    (hnames : names.Pairwise Before) (hnames' : names'.Pairwise Before)
    (hmem : ∀ a, a ∈ names ↔ a ∈ names') : names = names' := by
  have : Std.Asymm fun a b : ι => Before a b := ⟨fun _ _ => Before.asymm⟩
  have : Std.Irrefl fun a b : ι => Before a b := ⟨fun a => Before.irrefl a⟩
  exact List.Pairwise.eq_of_mem_iff hnames hnames' hmem

/-- The distinct names of a list depend only on its members. -/
theorem Name.sortDistinct_congr {ι : Type} [Name ι] [DecidableEq ι] {names names' : List ι}
    (hmem : ∀ a, a ∈ names ↔ a ∈ names') : sortDistinct names = sortDistinct names' := by
  apply Name.eq_of_mem_iff (pairwise_sortDistinct names) (pairwise_sortDistinct names')
  intro a
  rw [mem_sortDistinct, mem_sortDistinct, hmem]

namespace Registry

variable {ι α : Type} [Name ι] [DecidableEq ι]

theorem find?_eq_some_of_mem {entries : List (ι × α)}
    (hentries : entries.Pairwise fun a b => Before a.1 b.1) {e : ι × α} (he : e ∈ entries) :
    (entries.find? fun d => d.1 = e.1) = some e := by
  induction entries with
  | nil => cases he
  | cons d rest ih =>
      obtain ⟨hd, hrest⟩ := List.pairwise_cons.mp hentries
      rcases List.mem_cons.mp he with rfl | he
      · simp
      · have hne : d.1 ≠ e.1 := (hd e he).ne
        simp [hne, ih hrest he]

theorem get?_eq_some_iff {r : Registry ι α} {k : ι} {v : α} :
    r.get? k = some v ↔ (k, v) ∈ r.entries := by
  unfold get?
  constructor
  · intro hget
    obtain ⟨e, hfind, rfl⟩ := Option.map_eq_some_iff.mp hget
    have hkey : e.1 = k := by simpa using List.find?_some hfind
    exact hkey ▸ List.mem_of_find?_eq_some hfind
  · intro hmem
    rw [find?_eq_some_of_mem r.ascending hmem]
    rfl

/-- Registries with the same values under the same names are equal. -/
theorem eq_of_get?_eq {r s : Registry ι α} (hget : ∀ k, r.get? k = s.get? k) : r = s := by
  have hmem : ∀ e, e ∈ r.entries ↔ e ∈ s.entries := by
    intro e
    rw [← get?_eq_some_iff, ← get?_eq_some_iff, hget]
  -- ascending lists with the same members are the same list
  have : Std.Asymm fun a b : ι × α => Before a.1 b.1 := ⟨fun _ _ => Before.asymm⟩
  have : Std.Irrefl fun a b : ι × α => Before a.1 b.1 := ⟨fun a => Before.irrefl a.1⟩
  exact Registry.ext (List.Pairwise.eq_of_mem_iff r.ascending s.ascending hmem)

theorem insert_eq_self {r : Registry ι α} {k : ι} {v : α} (hget : r.get? k = some v) :
    r.insert k v = r := by
  apply eq_of_get?_eq
  intro k'
  rw [get?_insert]
  split
  next heq => rw [← heq, hget]
  next => rfl

theorem insert_insert (r : Registry ι α) (k : ι) (v w : α) :
    (r.insert k v).insert k w = r.insert k w := by
  apply eq_of_get?_eq
  intro k'
  rw [get?_insert, get?_insert, get?_insert]
  split <;> rfl

theorem get?_filterMap {β : Type} (f : α → Option β) (r : Registry ι α) (k : ι) :
    (r.filterMap f).get? k = (r.get? k).bind f := by
  apply Option.ext
  intro v
  rw [get?_eq_some_iff, Option.bind_eq_some_iff]
  simp only [filterMap, List.mem_filterMap, Option.map_eq_some_iff, Prod.mk.injEq,
    get?_eq_some_iff]
  constructor
  · rintro ⟨⟨k', w⟩, hmem, v', hv, rfl, rfl⟩
    exact ⟨w, hmem, hv⟩
  · rintro ⟨w, hmem, hv⟩
    exact ⟨(k, w), hmem, v, hv, rfl, rfl⟩

end Registry

namespace Balances

theorem get?_set (b : Balances) (account other : AccountId) (amount : Amount) :
    (b.set account amount).get? other =
      if account = other then if amount = 0 then none else some amount else b.get? other := by
  unfold set
  split
  · exact Registry.get?_erase ..
  · exact Registry.get?_insert ..

/-- Nobody has an entry and holds nothing. -/
def NoZeros (b : Balances) : Prop := ∀ account, b.get? account ≠ some 0

theorem noZeros_empty : NoZeros ∅ := by
  rintro account ⟨⟩

theorem NoZeros.set {b : Balances} (hb : b.NoZeros) (account : AccountId) (amount : Amount) :
    (b.set account amount).NoZeros := by
  intro other
  rw [get?_set]
  split
  · split
    next => simp
    next hamount => exact fun hzero => hamount (Option.some.inj hzero)
  · exact hb other

theorem NoZeros.foldl_set {b : Balances} (hb : b.NoZeros) (entries : List (AccountId × Amount)) :
    (entries.foldl (fun tokens e => tokens.set e.1 e.2) b).NoZeros := by
  induction entries generalizing b with
  | nil => exact hb
  | cons e rest ih => exact ih (hb.set e.1 e.2)

end Balances

end MoneyMarket
