import MoneyMarket.Proofs.Controller.Operation

/-! # Memberships after entering and leaving

Entering adds a market to those of one account, and leaving takes it away.
Closing a market takes it away from all accounts. No account is left with an
entry and without markets.
-/

namespace MoneyMarket

variable {c : Controller} {account other : AccountId} {market market' : MarketId}

namespace Memberships

theorem of_enter (r : Memberships) (account other : AccountId) (market : MarketId) :
    (r.enter account market).of other =
      if account = other then r.of account ++ [market] else r.of other := by
  unfold enter of Registry.getD
  rw [Registry.get?_insert]
  split <;> rfl

theorem without_getD (market : MarketId) (markets : List MarketId) :
    (without market markets).getD [] = markets.filter (· ≠ market) := by
  unfold without
  split
  next hnone => exact hnone.symm
  next => rfl

theorem of_leave (r : Memberships) (account other : AccountId) (market : MarketId) :
    (r.leave account market).of other =
      if account = other then (r.of account).filter (· ≠ market) else r.of other := by
  have hwithout := without_getD market (r.of account)
  unfold leave of Registry.getD at *
  cases hget : r.get? account with
  | none =>
      dsimp only
      split
      next heq => simp [← heq, hget]
      next => rfl
  | some markets =>
      rw [hget] at hwithout
      dsimp only [Option.getD_some] at hwithout ⊢
      split
      next hnone =>
        rw [hnone] at hwithout
        rw [Registry.get?_erase]
        split
        next => exact hwithout
        next => rfl
      next rest hrest =>
        rw [hrest] at hwithout
        rw [Registry.get?_insert]
        split
        next => exact hwithout
        next => rfl

theorem of_close (r : Memberships) (account : AccountId) (market : MarketId) :
    (r.close market).of account = (r.of account).filter (· ≠ market) := by
  have hwithout := without_getD market (r.of account)
  unfold close of Registry.getD at *
  rw [Registry.get?_filterMap]
  cases hget : r.get? account with
  | none => rfl
  | some markets =>
      rw [hget] at hwithout
      exact hwithout

/-- No account has an entry and is in no market. -/
def NoBlanks (r : Memberships) : Prop := ∀ account, r.get? account ≠ some []

theorem without_ne_some_nil (market : MarketId) (markets : List MarketId) :
    without market markets ≠ some [] := by
  unfold without
  split
  next => simp
  next rest hrest => simpa using hrest

variable {r : Memberships}

theorem NoBlanks.enter (hr : r.NoBlanks) (account : AccountId) (market : MarketId) :
    (r.enter account market).NoBlanks := by
  intro other
  unfold Memberships.enter
  rw [Registry.get?_insert]
  split
  · simp
  · exact hr other

theorem NoBlanks.leave (hr : r.NoBlanks) (account : AccountId) (market : MarketId) :
    (r.leave account market).NoBlanks := by
  intro other
  unfold Memberships.leave
  split
  · exact hr other
  next markets _ =>
    split
    next =>
      rw [Registry.get?_erase]
      split
      · simp
      · exact hr other
    next rest hrest =>
      rw [Registry.get?_insert]
      split
      · rw [← hrest]
        exact without_ne_some_nil market markets
      · exact hr other

theorem noBlanks_close (r : Memberships) (market : MarketId) : (r.close market).NoBlanks := by
  intro account hblank
  unfold close at hblank
  rw [Registry.get?_filterMap, Option.bind_eq_some_iff] at hblank
  obtain ⟨markets, -, hwithout⟩ := hblank
  exact without_ne_some_nil market markets hwithout

end Memberships

namespace Controller

theorem isMember_iff : c.isMember account market = true ↔ market ∈ c.memberships.of account := by
  unfold isMember marketsOf
  rw [List.contains_iff_mem]

theorem isMember_enter :
    (c.setMemberships (c.memberships.enter account market)).isMember other market' = true ↔
      c.isMember other market' = true ∨ account = other ∧ market = market' := by
  rw [isMember_iff, isMember_iff]
  change market' ∈ (c.memberships.enter account market).of other ↔ _
  rw [Memberships.of_enter]
  split
  next heq => simp [heq, eq_comm]
  next hne => simp [hne]

theorem isMember_leave :
    (c.setMemberships (c.memberships.leave account market)).isMember other market' = true ↔
      c.isMember other market' = true ∧ ¬(account = other ∧ market = market') := by
  rw [isMember_iff, isMember_iff]
  change market' ∈ (c.memberships.leave account market).of other ↔ _
  rw [Memberships.of_leave]
  split
  next heq => simp [heq, @eq_comm _ market market']
  next hne => simp [hne]

theorem isMember_close :
    (c.setMemberships (c.memberships.close market)).isMember other market' = true ↔
      c.isMember other market' = true ∧ market ≠ market' := by
  rw [isMember_iff, isMember_iff]
  change market' ∈ (c.memberships.close market).of other ↔ _
  rw [Memberships.of_close]
  simp [@eq_comm _ market market']

theorem isMember_enter_of_ne (hne : market ≠ market') :
    (c.setMemberships (c.memberships.enter account market)).isMember other market' =
      c.isMember other market' :=
  Bool.eq_iff_iff.mpr (isMember_enter.trans (or_iff_left fun heq => hne heq.2))

theorem isMember_leave_of_ne (hne : market ≠ market') :
    (c.setMemberships (c.memberships.leave account market)).isMember other market' =
      c.isMember other market' :=
  Bool.eq_iff_iff.mpr (isMember_leave.trans (and_iff_left fun heq => hne heq.2))

end Controller

end MoneyMarket
