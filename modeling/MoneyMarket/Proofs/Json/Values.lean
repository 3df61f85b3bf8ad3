import MoneyMarket.Proofs.Entries
import MoneyMarket.Proofs.Json.Reordering
import MoneyMarket.Vocabulary

/-! # Stored values

Names, amounts, wads and registries come back as they were stored, a registry in
whatever order its entries stand: each name stands there once, so that the order in
which they are put in does not matter.
-/

namespace MoneyMarket

/-! ## Hexadecimal text -/

namespace Numeral

theorem exists_digit_of_mem_write {base n : Nat} {c : Char} (hbase : 1 < base)
    (hc : c ∈ write base n) : ∃ d < base, c = d.digitChar := by
  induction n using Nat.strongRecOn with
  | ind n ih =>
    by_cases hlt : n < base
    · rw [write, Nat.toDigits_of_lt_base hlt, List.mem_singleton] at hc
      exact ⟨n, hlt, hc⟩
    · rw [write, Nat.toDigits_of_base_le hbase (Nat.le_of_not_lt hlt), List.mem_append,
        List.mem_singleton] at hc
      rcases hc with hc | hc
      · exact ih (n / base) (Nat.div_lt_self (by omega) hbase) hc
      · exact ⟨n % base, Nat.mod_lt n (by omega), hc⟩

theorem isWhitespace_of_mem_write {n : Nat} {c : Char} (hc : c ∈ write 16 n) :
    c.isWhitespace = false := by
  have hall : ∀ d < 16, d.digitChar.isWhitespace = false := by decide
  obtain ⟨d, hd, rfl⟩ := exists_digit_of_mem_write (by decide) hc
  exact hall d hd

end Numeral

theorem Amount.ofHex?_hex (a : Amount) : ofHex? a.hex = some a := by
  have hlength : (Numeral.write 16 a.toNat).length ≤ 64 := by
    rw [Numeral.write, Nat.length_toDigits_le_iff (by decide) (by decide)]
    exact a.toNat_lt
  have hdigits : (Numeral.write 16 a.toNat).filter (!·.isWhitespace) =
      Numeral.write 16 a.toNat := by
    rw [List.filter_eq_self]
    intro c hc
    rw [Numeral.isWhitespace_of_mem_write hc]
    rfl
  have hread : ofNat a.toNat = .ok a := ofNat_eq_ok.mpr rfl
  unfold ofHex? hex
  simp only [String.toList_ofList, hdigits]
  simp [Numeral.write_ne_nil, Numeral.read?_write, hread, Except.toOption]
  omega

namespace Registry

open Name

variable {ι α : Type} [Name ι] [DecidableEq ι]

/-- Values put in under distinct names are all there, among what was there before. -/
theorem get?_foldl_insert {entries : List (ι × α)} (hnodup : (entries.map Prod.fst).Nodup)
    (r : Registry ι α) (k : ι) (v : α) :
    (entries.foldl (fun r e => r.insert e.1 e.2) r).get? k = some v ↔
      (k, v) ∈ entries ∨ k ∉ entries.map Prod.fst ∧ r.get? k = some v := by
  induction entries generalizing r with
  | nil => simp
  | cons e rest ih =>
    obtain ⟨he, hrest⟩ := List.nodup_cons.mp hnodup
    rw [List.foldl_cons, ih hrest, get?_insert]
    by_cases hk : e.1 = k
    · subst hk
      have hmem : (e.1, v) ∉ rest := fun hmem => he (List.mem_map.mpr ⟨_, hmem, rfl⟩)
      simp [he, hmem, Prod.ext_iff, eq_comm]
    · have hne : (k, v) ≠ e := fun heq => hk (heq ▸ rfl)
      simp [hk, hne, Ne.symm hk]

omit [DecidableEq ι] in
theorem nodup_keys (r : Registry ι α) : (r.entries.map Prod.fst).Nodup :=
  (List.pairwise_map.mpr r.ascending).imp Before.ne

theorem ofList_eq_of_perm {entries : List (ι × α)} {r : Registry ι α}
    (hperm : entries.Perm r.entries) : ofList entries = r := by
  have hnodup : (entries.map Prod.fst).Nodup := ((hperm.map _).nodup_iff).mpr r.nodup_keys
  apply eq_of_get?_eq
  intro k
  apply Option.ext
  intro v
  rw [ofList, get?_foldl_insert hnodup, get?_empty, get?_eq_some_iff, hperm.mem_iff]
  simp

end Registry

namespace Json

variable {α : Type} {j : Json} {members : List (String × Json)}

/-- What is read is what was stored, in whatever order the members come. -/
def Restores (decode : Json → Option α) (encode : α → Json) : Prop :=
  ∀ a j, (encode a).Reordered j → decode j = some a

theorem Restores.apply_encode {decode : Json → Option α} {encode : α → Json}
    (hrestores : Restores decode encode) (a : α) : decode (encode a) = some a :=
  hrestores a _ (.same _)

theorem Record.Holds.required? {r : Record} (hr : r.Holds members) {decode : Json → Option α}
    {encode : α → Json} (hrestores : Restores decode encode) {name : String} {a : α}
    (hmem : (name, encode a) ∈ members) : r.required? name decode = some a := by
  obtain ⟨value, hfind, hreordered⟩ := hr _ hmem
  rw [Record.required?, hfind]
  exact hrestores a value hreordered

/-- What is read after a member is read with the value that was stored. -/
theorem Record.Holds.bind_required? {β : Type} {r : Record} (hr : r.Holds members)
    {decode : Json → Option α} {encode : α → Json} (hrestores : Restores decode encode)
    {name : String} (a : α) (hmem : (name, encode a) ∈ members) {rest : α → Option β} {b : β}
    (hrest : rest a = some b) : (r.required? name decode >>= rest) = some b := by
  rw [hr.required? hrestores hmem]
  exact hrest

/-! ## Values without members -/

section Scalars

variable {ι : Type} [Name ι]

theorem reordered_ofName {a : ι} : (ofName a).Reordered j ↔ j = ofName a := reordered_str

theorem reordered_ofAmount {a : Amount} : (ofAmount a).Reordered j ↔ j = ofAmount a :=
  reordered_str

theorem reordered_ofWad {w : Wad} : (ofWad w).Reordered j ↔ j = ofWad w := reordered_str

theorem reordered_ofUInt64 {n : UInt64} : (ofUInt64 n).Reordered j ↔ j = ofUInt64 n :=
  reordered_int

theorem reordered_word [Vocabulary α] {a : α} :
    (Vocabulary.toJson a).Reordered j ↔ j = Vocabulary.toJson a :=
  reordered_str

@[simp]
theorem asName?_ofName (a : ι) : asName? (ofName a) = some a := congrArg some (Name.ofText_text a)

@[simp]
theorem asAmount?_ofAmount (a : Amount) : asAmount? (ofAmount a) = some a := a.ofHex?_hex

@[simp]
theorem asWad?_ofWad (w : Wad) : asWad? (ofWad w) = some w := by
  rw [asWad?, ofWad, asAmount?_ofAmount]
  rfl

theorem restores_name : Restores asName? (ofName : ι → Json) := by
  intro a j hj
  rw [reordered_ofName.mp hj, asName?_ofName]

theorem restores_amount : Restores asAmount? ofAmount := by
  intro a j hj
  rw [reordered_ofAmount.mp hj, asAmount?_ofAmount]

theorem restores_wad : Restores asWad? ofWad := by
  intro w j hj
  rw [reordered_ofWad.mp hj, asWad?_ofWad]

theorem restores_uInt64 : Restores asUInt64? ofUInt64 := by
  intro n j hj
  rw [reordered_ofUInt64.mp hj, asUInt64?_ofUInt64]

theorem Record.Holds.optional?_name {r : Record} (hr : r.Holds members) {name : String}
    {o : Option ι} (hmem : (name, ofOption ofName o) ∈ members) :
    r.optional? name asName? = some o := by
  obtain ⟨value, hfind, hreordered⟩ := hr _ hmem
  cases o with
  | none =>
    rw [Record.optional?, hfind, reordered_null.mp hreordered]
  | some a =>
    rw [Record.optional?, hfind, reordered_ofName.mp hreordered]
    exact congrArg (Option.map some) (asName?_ofName a)

end Scalars

/-! ## Registries -/

/-- The entries that the members of an object are read as, each under its own name. -/
theorem exists_mapM_eq_some {ι : Type} [Name ι] {decode : Json → Option α}
    {members : List (String × Json)} {entries : List (ι × α)}
    (hread : ∀ m ∈ members, ∃ e ∈ entries, Name.text e.1 = m.1 ∧ decode m.2 = some e.2) :
    ∃ found : List (ι × α),
      members.mapM (fun m => (decode m.2).map (Name.ofText m.1, ·)) = some found ∧
        found ⊆ entries ∧ found.map (fun e => Name.text e.1) = members.map Prod.fst := by
  induction members with
  | nil => exact ⟨[], rfl, nofun, rfl⟩
  | cons m rest ih =>
    obtain ⟨e, he, hname, hdecode⟩ := hread m List.mem_cons_self
    obtain ⟨found, hfound, hsubset, hnames⟩ :=
      ih fun m' hm' => hread m' (List.mem_cons_of_mem _ hm')
    refine ⟨e :: found, ?_, List.cons_subset.mpr ⟨he, hsubset⟩, ?_⟩
    · rw [List.mapM_cons, hfound, hdecode, ← hname, Name.ofText_text]
      rfl
    · rw [List.map_cons, List.map_cons, hnames, hname]

/-- The entries of a registry may come in any order. -/
theorem restores_registry {ι : Type} [Name ι] [DecidableEq ι] {decode : Json → Option α}
    {encode : α → Json} (hrestores : Restores decode encode) :
    Restores (asRegistryOf? decode : Json → Option (Registry ι α)) (ofRegistry encode) := by
  intro r j hj
  obtain ⟨members, rfl, hsame⟩ := hj.exists_members
  have hread : ∀ m ∈ members, ∃ e ∈ r.entries, Name.text e.1 = m.1 ∧ decode m.2 = some e.2 := by
    intro m hm
    obtain ⟨value, hmem, hreordered⟩ := hsame.back m hm
    obtain ⟨e, he, heq⟩ := List.mem_map.mp hmem
    obtain ⟨hname, rfl⟩ := Prod.mk.inj heq
    exact ⟨e, he, hname, hrestores e.2 m.2 hreordered⟩
  obtain ⟨found, hfound, hsubset, hnames⟩ := exists_mapM_eq_some hread
  have hperm : found.Perm r.entries := by
    have hnamesPerm : (r.entries.map fun e => Name.text e.1).Perm
        (found.map fun e => Name.text e.1) := by
      simpa [hnames, Function.comp_def] using hsame.names
    have hnodup := r.nodup_keys.map fun _ _ => Name.text_injective
    rw [List.map_map] at hnodup
    -- distinct entries, all of them in the registry, and as many as it has
    refine List.Subperm.perm_of_length_le
      (List.subperm_of_subset (List.Nodup.of_map _ (hnamesPerm.nodup_iff.mp hnodup)) hsubset) ?_
    simpa using hnamesPerm.length_eq.le
  rw [asRegistryOf?, hfound]
  exact congrArg some (Registry.ofList_eq_of_perm hperm)

end Json

end MoneyMarket
