import MoneyMarket.Event.Json
import MoneyMarket.Market.Json
import MoneyMarket.Proofs.Json.Values

/-! # What is stored

Markets and events come back from storage as they were, in whatever order the
members of their objects come. So different markets are stored differently, and so
are different events: not even another order of the members makes them the same.
-/

namespace MoneyMarket

open Json

variable {j : Json}

/-! ## Markets -/

theorem restores_debt : Restores Debt.ofJson? Debt.toJson := by
  intro debt j hj
  obtain ⟨members, rfl, hsame⟩ := hj.exists_members
  refine hsame.bind_record?_eq_some rfl (by decide) fun r hr => ?_
  refine hr.bind_required? restores_amount debt.principal (by simp) ?_
  refine hr.bind_required? restores_wad debt.interestIndex (by simp) ?_
  rfl

theorem restores_collateralLedger : Restores CollateralLedger.ofJson? CollateralLedger.toJson := by
  intro ledger j hj
  obtain ⟨members, rfl, hsame⟩ := hj.exists_members
  refine hsame.bind_record?_eq_some rfl (by decide) fun r hr => ?_
  refine hr.bind_required? restores_amount ledger.cap (by simp) ?_
  refine hr.bind_required? restores_amount ledger.total (by simp) ?_
  refine hr.bind_required? (restores_registry restores_amount) ledger.tokens (by simp) ?_
  rfl

theorem restores_marketKind : Restores MarketKind.ofJson? MarketKind.toJson := by
  intro kind j hj
  cases kind with
  | vanilla =>
      rw [reordered_str.mp hj]
      rfl
  | wrappedNative =>
      rw [reordered_str.mp hj]
      rfl
  | collateralCap ledger =>
      obtain ⟨held, hchoice, hledger⟩ := hj.exists_choice
      rw [MarketKind.ofJson?, hchoice]
      have hheld := restores_collateralLedger ledger held hledger
      simp [hheld]

theorem slopes_ofRecord? {r : Record} {members : List (String × Json)} {s : Slopes}
    (hr : r.Holds members) (hbase : ("base_rate_per_second", ofWad s.base) ∈ members)
    (hmultiplier : ("multiplier_per_second", ofWad s.multiplier) ∈ members)
    (hjump : ("jump_multiplier_per_second", ofWad s.jumpMultiplier) ∈ members) :
    Slopes.ofRecord? r = some s := by
  refine hr.bind_required? restores_wad s.base hbase ?_
  refine hr.bind_required? restores_wad s.multiplier hmultiplier ?_
  refine hr.bind_required? restores_wad s.jumpMultiplier hjump ?_
  rfl

theorem restores_rateModel : Restores RateModel.ofJson? RateModel.toJson := by
  intro model j hj
  cases model with
  | jumpRate m =>
      obtain ⟨members, rfl, hsame⟩ := hj.exists_members
      obtain ⟨others, htagged, hothers⟩ := hsame.exists_tagged (by simp)
      rw [RateModel.ofJson?, htagged]
      refine hothers.bind_record?_eq_some rfl (by decide) fun r hr => ?_
      rw [slopes_ofRecord? (s := m.slopes) hr (by simp) (by simp) (by simp)]
      refine hr.bind_required? restores_wad m.kink (by simp) ?_
      refine hr.bind_required? restores_wad m.roof (by simp) ?_
      rfl
  | tripleSlope m =>
      obtain ⟨members, rfl, hsame⟩ := hj.exists_members
      obtain ⟨others, htagged, hothers⟩ := hsame.exists_tagged (by simp)
      rw [RateModel.ofJson?, htagged]
      refine hothers.bind_record?_eq_some rfl (by decide) fun r hr => ?_
      rw [slopes_ofRecord? (s := m.slopes) hr (by simp) (by simp) (by simp)]
      refine hr.bind_required? restores_wad m.kink1 (by simp) ?_
      refine hr.bind_required? restores_wad m.kink2 (by simp) ?_
      refine hr.bind_required? restores_wad m.roof (by simp) ?_
      rfl

theorem restores_market : Restores Market.ofJson? Market.toJson := by
  intro m j hj
  obtain ⟨members, rfl, hsame⟩ := hj.exists_members
  refine hsame.bind_record?_eq_some rfl (by decide) fun r hr => ?_
  refine hr.bind_required? restores_name m.id (by simp) ?_
  refine hr.bind_required? restores_marketKind m.kind (by simp) ?_
  refine hr.bind_required? restores_rateModel m.rateModel (by simp) ?_
  refine hr.bind_required? restores_wad m.reserveFactor (by simp) ?_
  refine hr.bind_required? restores_wad m.initialExchangeRate (by simp) ?_
  refine hr.bind_required? restores_wad m.borrowRateMax (by simp) ?_
  refine hr.bind_required? restores_uInt64 m.flashFeeBips (by simp) ?_
  refine hr.bind_required? restores_amount m.cash (by simp) ?_
  refine hr.bind_required? restores_amount m.totalBorrows (by simp) ?_
  refine hr.bind_required? restores_amount m.totalReserves (by simp) ?_
  refine hr.bind_required? restores_amount m.totalSupply (by simp) ?_
  refine hr.bind_required? restores_wad m.borrowIndex (by simp) ?_
  refine hr.bind_required? restores_uInt64 m.accrualTimestamp (by simp) ?_
  refine hr.bind_required? (restores_registry restores_amount) m.balances (by simp) ?_
  refine hr.bind_required? (restores_registry restores_debt) m.debts (by simp) ?_
  rfl

/-! ## Events -/

@[simp]
theorem Action.ofJson?_toJson (action : Action) :
    Vocabulary.ofJson? (Vocabulary.toJson action) = some action := by
  cases action <;> decide

/-- The record of an event holds its values under their names, and so they are read. -/
theorem Event.ofFields?_of_sameMembers {members : List (String × Json)} (e : Event)
    (hsame : SameMembers e.fields members) : ofFields? e.name (.obj members) = some e := by
  cases e with
  -- a guardian may be missing; of any other value the record has one
  | newPauseGuardian guardian | newSupplyCapGuardian guardian | newBorrowCapGuardian guardian =>
      refine hsame.bind_record?_eq_some rfl (by decide) fun r hr => ?_
      rw [hr.optional?_name (o := guardian) (by simp [fields])]
      rfl
  | _ =>
      refine hsame.bind_record?_eq_some rfl (by decide) fun r hr => ?_
      simp only [Record.Holds, fields, List.forall_mem_cons, reordered_ofName, reordered_ofAmount,
        reordered_ofWad, reordered_bool, reordered_word, exists_eq_right] at hr
      simp [Record.required?, hr, asBool?]

theorem restores_event : Restores Event.ofJson? Event.toJson := by
  intro e j hj
  obtain ⟨held, hchoice, hheld⟩ := hj.exists_choice
  obtain ⟨members, rfl, hsame⟩ := hheld.exists_members
  rw [Event.ofJson?, hchoice]
  exact e.ofFields?_of_sameMembers hsame

/-! ## Nothing is lost -/

namespace Json

variable {α : Type} {decode : Json → Option α} {encode : α → Json}

/-- What is read back has one origin. -/
theorem Restores.eq_of_reordered (hrestores : Restores decode encode) {a b : α}
    (ha : (encode a).Reordered j) (hb : (encode b).Reordered j) : a = b :=
  Option.some.inj ((hrestores a j ha).symm.trans (hrestores b j hb))

end Json

/-- A stored market is read as the market that it was, and a stored event as the
event, whatever the order of the members. So no value is the stored form of two
markets, or of two events, in any order of its members. -/
theorem stored_read_back :
    (∀ m : Market, Market.ofJson? m.toJson = some m) ∧
    (∀ e : Event, Event.ofJson? e.toJson = some e) ∧
    (∀ (m : Market) (j : Json), m.toJson.Reordered j → Market.ofJson? j = some m) ∧
    (∀ (e : Event) (j : Json), e.toJson.Reordered j → Event.ofJson? j = some e) ∧
    (∀ (m m' : Market) (j : Json), m ≠ m' → m.toJson.Reordered j → ¬m'.toJson.Reordered j) ∧
    ∀ (e e' : Event) (j : Json), e ≠ e' → e.toJson.Reordered j → ¬e'.toJson.Reordered j := by
  refine ⟨restores_market.apply_encode, restores_event.apply_encode, restores_market,
    restores_event, ?_, ?_⟩
  · exact fun m m' j hne hm hm' => hne (restores_market.eq_of_reordered hm hm')
  · exact fun e e' j hne he he' => hne (restores_event.eq_of_reordered he he')

/-- A market with a debt and with registered collateral. -/
def storedSample : Market where
  id := ⟨"jUSD"⟩
  kind := .collateralCap ⟨0, 1, .ofList [(⟨"bob"⟩, 1)]⟩
  rateModel := .tripleSlope ⟨⟨0, 1, 1⟩, 0, 1, 1⟩
  reserveFactor := 0
  initialExchangeRate := 1
  borrowRateMax := 1
  flashFeeBips := 8
  cash := 1
  totalBorrows := 1
  totalReserves := 0
  totalSupply := 1
  borrowIndex := 1
  accrualTimestamp := 86400
  balances := .ofList [(⟨"bob"⟩, 1)]
  debts := .ofList [(⟨"bob"⟩, ⟨1, 1⟩), (⟨""⟩, ⟨0, 0⟩)]

/-- The members of an object backwards. -/
def Json.backwards : Json → Json
  | .obj members => .obj members.reverse
  | j => j

def storedEvent : Event := .transfer ⟨"jUSD"⟩ ⟨"bob"⟩ ⟨""⟩ 1

theorem storedSample_read_back :
    Market.ofJson? storedSample.toJson.backwards = some storedSample ∧
    Event.ofJson? (.obj [("Transfer", .obj storedEvent.fields.reverse)]) = some storedEvent ∧
    ¬(Market.toJson { storedSample with kind := .vanilla }).Reordered
      storedSample.toJson.backwards ∧
    ¬(Event.toJson (.newPauseGuardian (some ⟨""⟩))).Reordered
      (Event.toJson (.newPauseGuardian none)) := by
  obtain ⟨-, -, hmarket, hevent, hmarkets, hevents⟩ := stored_read_back
  have hbackwards : storedEvent.toJson.Reordered
      (.obj [("Transfer", .obj storedEvent.fields.reverse)]) := by
    refine .obj ?_ ?_ (.refl _)
    · rfl
    · exact .cons (reordered_reverse _) .nil
  refine ⟨hmarket _ _ (reordered_reverse _), hevent _ _ hbackwards, ?_, ?_⟩
  · exact hmarkets storedSample _ _ (by decide +kernel) (reordered_reverse _)
  · exact hevents (.newPauseGuardian none) _ _ (by decide) (.same _)

end MoneyMarket
