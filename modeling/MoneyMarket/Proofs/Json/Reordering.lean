import Mathlib.Data.List.Forall2
import Mathlib.Data.List.Nodup
import MoneyMarket.Json.Record

/-! # The order of members

The members of an object have no order of their own: a value that has been stored
may come back with the members of its objects in another one. What was given to a
record under a name is found under this name in every order, and so are the kind
of a tagged record and the choice of an alternative.
-/

namespace MoneyMarket.Json

/-- The same value with the members of objects in another order. -/
inductive Reordered : Json → Json → Prop
  | same (j : Json) : Reordered j j
  | arr {items items' : List Json} (hitems : List.Forall₂ Reordered items items') :
      Reordered (.arr items) (.arr items')
  | obj {members changed members' : List (String × Json)}
      (hnames : members.map Prod.fst = changed.map Prod.fst)
      (hvalues : List.Forall₂ Reordered (members.map Prod.snd) (changed.map Prod.snd))
      (horder : changed.Perm members') : Reordered (.obj members) (.obj members')

variable {j : Json} {members changed members' : List (String × Json)}

/-! ## Values without members -/

theorem reordered_iff_eq {scalar : Json} (harr : ∀ items, scalar ≠ .arr items)
    (hobj : ∀ members, scalar ≠ .obj members) : scalar.Reordered j ↔ j = scalar := by
  constructor
  · rintro (_ | _ | _)
    · rfl
    · exact absurd rfl (harr _)
    · exact absurd rfl (hobj _)
  · rintro rfl
    exact .same _

theorem reordered_null : Reordered .null j ↔ j = .null := reordered_iff_eq nofun nofun

theorem reordered_bool {b : Bool} : Reordered (.bool b) j ↔ j = .bool b :=
  reordered_iff_eq nofun nofun

theorem reordered_int {n : Int} : Reordered (.int n) j ↔ j = .int n := reordered_iff_eq nofun nofun

theorem reordered_str {s : String} : Reordered (.str s) j ↔ j = .str s :=
  reordered_iff_eq nofun nofun

/-! ## Members -/

/-- The names occur as often, and under each of them stand the same values but for
the order of their own members. -/
structure SameMembers (members members' : List (String × Json)) : Prop where
  names : (members.map Prod.fst).Perm (members'.map Prod.fst)
  forth : ∀ m ∈ members, ∃ value, (m.1, value) ∈ members' ∧ m.2.Reordered value
  back : ∀ m ∈ members', ∃ value, (m.1, value) ∈ members ∧ value.Reordered m.2

theorem sameMembers_of_forall₂ (hnames : members.map Prod.fst = changed.map Prod.fst)
    (hvalues : List.Forall₂ Reordered (members.map Prod.snd) (changed.map Prod.snd)) :
    SameMembers members changed := by
  induction members generalizing changed with
  | nil =>
    cases changed with
    | nil => exact ⟨.refl _, nofun, nofun⟩
    | cons n rest => cases hnames
  | cons m rest ih =>
    cases changed with
    | nil => cases hnames
    | cons n changed =>
      obtain ⟨hname, hnames⟩ := List.cons_eq_cons.mp hnames
      obtain ⟨hvalue, hvalues⟩ := List.forall₂_cons.mp hvalues
      obtain ⟨hrestNames, hforth, hback⟩ := ih hnames hvalues
      refine ⟨?_, ?_, ?_⟩
      · simpa [hname] using hrestNames
      · rintro m' (_ | ⟨_, hm'⟩)
        · exact ⟨n.2, by simp [hname], hvalue⟩
        · obtain ⟨value, hmem, hreordered⟩ := hforth m' hm'
          exact ⟨value, List.mem_cons_of_mem _ hmem, hreordered⟩
      · rintro n' (_ | ⟨_, hn'⟩)
        · exact ⟨m.2, by simp [← hname], hvalue⟩
        · obtain ⟨value, hmem, hreordered⟩ := hback n' hn'
          exact ⟨value, List.mem_cons_of_mem _ hmem, hreordered⟩

theorem SameMembers.of_perm (hsame : SameMembers members changed)
    (horder : changed.Perm members') : SameMembers members members' where
  names := hsame.names.trans (horder.map _)
  forth m hm := by
    obtain ⟨value, hmem, hreordered⟩ := hsame.forth m hm
    exact ⟨value, horder.mem_iff.mp hmem, hreordered⟩
  back m hm := hsame.back m (horder.mem_iff.mpr hm)

theorem Reordered.exists_members (hj : Reordered (.obj members) j) :
    ∃ members', j = .obj members' ∧ SameMembers members members' := by
  cases hj with
  | same =>
    exact ⟨members, rfl, sameMembers_of_forall₂ rfl (List.forall₂_same.mpr fun _ _ => .same _)⟩
  | obj hnames hvalues horder =>
    exact ⟨_, rfl, (sameMembers_of_forall₂ hnames hvalues).of_perm horder⟩

theorem reordered_reverse (members : List (String × Json)) :
    Reordered (.obj members) (.obj members.reverse) :=
  .obj rfl (List.forall₂_same.mpr fun _ _ => .same _) members.reverse_perm.symm

/-! ## Records -/

theorem lookup_eq_some_of_mem {name : String} {value : Json}
    (hnodup : (members.map Prod.fst).Nodup) (hmem : (name, value) ∈ members) :
    members.lookup name = some value := by
  obtain ⟨before, later, rfl⟩ := List.append_of_mem hmem
  refine List.lookup_eq_some_iff.mpr ⟨before, later, rfl, fun m hm => ?_⟩
  rw [List.map_append, List.nodup_append] at hnodup
  have hne := hnodup.2.2 m.1 (List.mem_map_of_mem hm) name (by simp)
  simpa using hne.symm

/-- Under the name of each member the record has its value, but for the order. -/
def Record.Holds (r : Record) (members : List (String × Json)) : Prop :=
  ∀ m ∈ members, ∃ value, r.find? m.1 = some value ∧ m.2.Reordered value

/-- To read a record of all members is to read one that holds them. -/
theorem SameMembers.bind_record?_eq_some {α : Type} {names : List String} {a : α}
    {read : Record → Option α} (hsame : SameMembers members members')
    (hnames : members.map Prod.fst = names) (hnodup : names.Nodup)
    (hread : ∀ r : Record, r.Holds members → read r = some a) :
    ((obj members').record? names >>= read) = some a := by
  have hnodup' : (members'.map Prod.fst).Nodup := by
    rw [← hsame.names.nodup_iff, hnames]
    exact hnodup
  have hknown : members'.filter (fun m => names.contains m.1) = members' := by
    rw [List.filter_eq_self]
    intro m hm
    have hmem : m.1 ∈ members.map Prod.fst := hsame.names.mem_iff.mpr (List.mem_map_of_mem hm)
    simpa [hnames] using hmem
  have hrecord : (obj members').record? names = some ⟨false, members'⟩ := by
    simp only [record?, hknown, hnodup', if_true]
  rw [hrecord]
  apply hread
  intro m hm
  obtain ⟨value, hmem, hreordered⟩ := hsame.forth m hm
  exact ⟨value, lookup_eq_some_of_mem hnodup' hmem, hreordered⟩

/-! ## Tagged records and choices -/

/-- The only member of a name is found among the others. -/
theorem SameMembers.filter_eq {tag name : String}
    (hsame : SameMembers ((tag, .str name) :: members) members')
    (htag : tag ∉ members.map Prod.fst) :
    members'.filter (fun m => m.1 = tag) = [(tag, .str name)] := by
  have hnames : (members'.filter fun m => m.1 = tag).map Prod.fst = [tag] := by
    have hperm := (hsame.names.filter fun n => n = tag).symm
    have hnone : (members.map Prod.fst).filter (fun n => n = tag) = [] := by
      rw [List.filter_eq_nil_iff]
      intro n hn hdecide
      exact htag (of_decide_eq_true hdecide ▸ hn)
    rw [List.map_cons, List.filter_cons_of_pos (by simp), hnone, List.filter_map] at hperm
    exact List.perm_singleton.mp hperm
  obtain ⟨m, hfilter, rfl⟩ := List.map_eq_singleton_iff.mp hnames
  -- the one member of this name comes from the first one, as no other one has it
  have hmem : m ∈ members' := (List.mem_filter.mp (hfilter ▸ List.mem_singleton_self m)).1
  obtain ⟨value, hvalue, hreordered⟩ := hsame.back m hmem
  rcases List.mem_cons.mp hvalue with heq | hvalue
  · obtain rfl : value = .str name := congrArg Prod.snd heq
    rw [hfilter, ← reordered_str.mp hreordered]
  · exact absurd (List.mem_map_of_mem hvalue) htag

theorem SameMembers.exists_tagged {tag name : String}
    (hsame : SameMembers ((tag, .str name) :: members) members')
    (htag : tag ∉ members.map Prod.fst) :
    ∃ others, tagged? tag (.obj members') = some (name, .obj others) ∧
      SameMembers members others := by
  have hne : ∀ m ∈ members, m.1 ≠ tag := fun m hm heq => htag (heq ▸ List.mem_map_of_mem hm)
  refine ⟨members'.filter fun m => m.1 ≠ tag, ?_, ?_, ?_, ?_⟩
  · rw [tagged?, hsame.filter_eq htag]
  · have hperm := hsame.names.filter fun n => n ≠ tag
    have hall : (members.map Prod.fst).filter (fun n => n ≠ tag) = members.map Prod.fst := by
      rw [List.filter_eq_self]
      intro n hn
      obtain ⟨m, hm, rfl⟩ := List.mem_map.mp hn
      simpa using hne m hm
    rw [List.map_cons, List.filter_cons_of_neg (by simp), hall, List.filter_map] at hperm
    exact hperm
  · intro m hm
    obtain ⟨value, hmem, hreordered⟩ := hsame.forth m (List.mem_cons_of_mem _ hm)
    exact ⟨value, List.mem_filter.mpr ⟨hmem, by simpa using hne m hm⟩, hreordered⟩
  · intro m hm
    obtain ⟨hm, htag'⟩ := List.mem_filter.mp hm
    obtain ⟨value, hmem, hreordered⟩ := hsame.back m hm
    rcases List.mem_cons.mp hmem with heq | hmem
    · exact absurd (congrArg Prod.fst heq) (by simpa using htag')
    · exact ⟨value, hmem, hreordered⟩

/-- A choice of one name stays the only member. -/
theorem Reordered.exists_choice {name : String} {value : Json}
    (hj : Reordered (.obj [(name, value)]) j) :
    ∃ held, j.choice? = some (name, some held) ∧ value.Reordered held := by
  obtain ⟨members', rfl, hsame⟩ := hj.exists_members
  have hlength : members'.length = 1 := by simpa using hsame.names.length_eq.symm
  obtain ⟨⟨name', held⟩, rfl⟩ := List.length_eq_one_iff.mp hlength
  obtain ⟨value', hmem, hreordered⟩ := hsame.forth (name, value) List.mem_cons_self
  cases List.mem_singleton.mp hmem
  exact ⟨held, rfl, hreordered⟩

end MoneyMarket.Json
