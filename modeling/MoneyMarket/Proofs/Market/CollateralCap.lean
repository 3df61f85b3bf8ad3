import MoneyMarket.Proofs.Market.Availability

/-! # The collateral cap

Registering looks at the cap at every step of a plan, and nothing else adds to
the total: what is seized was registered before. So whatever is mixed in one
plan or in a run, the total stays under the cap, and where the cap was lowered
below it, the total does not rise until it is under the cap again.
-/

namespace MoneyMarket

/-- No step of a plan takes the total past the cap, or further past it. -/
theorem CollateralLedger.Draft.total_le {l : CollateralLedger} {p : CollateralPlan}
    (hp : l.Draft p) (hcap : l.cap ≠ 0) : p.total.toNat ≤ max l.total.toNat l.cap.toNat := by
  induction hp with
  | unchanged => exact Nat.le_max_left _ _
  | @registered p p' _ _ _ hregister ih =>
      have hroom : (l.room p).toNat = l.cap.toNat - p.total.toNat := by
        rw [room, if_neg hcap, Amount.toNat_excess]
      have htotal := (register_eq_ok hregister).1
      omega
  | released _ hrelease ih =>
      have htotal := (release_eq_ok hrelease).2.1
      omega
  | moved _ hmove ih => exact (move_eq_ok hmove).2.1.trans_le ih

namespace Market

variable {m m' : Market} {call : Call} {cap total : Amount}

/-- Whether a call sets the collateral cap. -/
def Call.setsCollateralCap : Call → Bool
  | .setCollateralCap _ => true
  | _ => false

theorem Change.total_le (hchange : Change m call m') (hcall : call.setsCollateralCap = false)
    (hcap : m.collateralCap? = some cap) (hcapped : cap ≠ 0)
    (htotal : m.totalCollateralTokens? = some total) :
    m'.collateralCap? = some cap ∧ ∃ total', m'.totalCollateralTokens? = some total' ∧
      total'.toNat ≤ max total.toNat cap.toNat := by
  obtain ⟨ledger, hledger, rfl⟩ := Option.map_eq_some_iff.mp hcap
  rw [totalCollateralTokens?, hledger, Option.map_some, Option.some.injEq] at htotal
  subst htotal
  rcases hchange.kind_eq with ⟨plan, hplan, hkind⟩ | ⟨_, _, rfl, -, -⟩
  · have hledger' : m'.kind.ledger? = some (plan.elim ledger ledger.commit) := by
      rw [hkind, MarketKind.ledger?_commit, hledger]
      rfl
    rw [collateralCap?, totalCollateralTokens?, hledger']
    cases plan with
    | none => exact ⟨rfl, _, rfl, Nat.le_max_left _ _⟩
    | some p => exact ⟨rfl, _, rfl, (hplan ledger hledger p rfl).total_le hcapped⟩
  · cases hcall

theorem total_le_of_run {calls : List Call} {events : List Event}
    (hcalls : ∀ call ∈ calls, call.setsCollateralCap = false)
    (hcap : m.collateralCap? = some cap) (hcapped : cap ≠ 0)
    (htotal : m.totalCollateralTokens? = some total) (hrun : m.run calls = .ok (m', events)) :
    m'.collateralCap? = some cap ∧ ∃ total', m'.totalCollateralTokens? = some total' ∧
      total'.toNat ≤ max total.toNat cap.toNat := by
  -- each step bounds the total by the one before it, so that one is general
  induction calls generalizing m total events with
  | nil =>
      cases pure_eq_ok.mp hrun
      exact ⟨hcap, total, htotal, Nat.le_max_left _ _⟩
  | cons call rest ih =>
      obtain ⟨between, _, _, hperform, hrest, -⟩ := run_cons_eq_ok.mp hrun
      obtain ⟨hcap', total', htotal', hle⟩ := (change_of_perform hperform).total_le
        (hcalls call List.mem_cons_self) hcap hcapped htotal
      obtain ⟨hcap'', total'', htotal'', hle'⟩ :=
        ih (fun call' hcall' => hcalls call' (List.mem_cons_of_mem call hcall')) hcap' htotal' hrest
      exact ⟨hcap'', total'', htotal'', hle'.trans (Nat.max_le.mpr ⟨hle, Nat.le_max_right _ _⟩)⟩

/-- Setting the cap registers nothing and takes nothing out. -/
theorem collateral_of_setCollateralCap {events : List Event}
    (hset : m.perform (.setCollateralCap cap) = .ok (m', events)) :
    m'.collateralCap? = some cap ∧ m'.totalCollateralTokens? = m.totalCollateralTokens? := by
  obtain ⟨hset, -⟩ := perform_setCollateralCap_eq_ok.mp hset
  obtain ⟨ledger, hkind, rfl⟩ := setCollateralCap_eq_ok.mp hset
  rw [totalCollateralTokens?, totalCollateralTokens?, hkind]
  exact ⟨rfl, rfl⟩

/-- No call but the setting of the cap takes the registered tokens past it, or
further past it. Where the cap is set below what is registered, however long
the run behind it, there is never more registered than there was at any time
before, until it is back under the cap. -/
theorem collateral_capped (hcap : m.collateralCap? = some cap)
    (htotal : m.totalCollateralTokens? = some total) :
    (cap ≠ 0 → ∀ (call : Call) (m' : Market) (events : List Event),
      call.setsCollateralCap = false → m.perform call = .ok (m', events) →
      ∃ total', m'.totalCollateralTokens? = some total' ∧
        total'.toNat ≤ max total.toNat cap.toNat) ∧
    ∀ (lowered : Amount) (m₁ m₂ m₃ : Market) (earlier later : List Call)
      (events₁ events₂ events₃ : List Event), lowered ≠ 0 →
      (∀ call ∈ earlier ++ later, call.setsCollateralCap = false) →
      m.perform (.setCollateralCap lowered) = .ok (m₁, events₁) →
      m₁.run earlier = .ok (m₂, events₂) → m₂.run later = .ok (m₃, events₃) →
      ∃ total₂ total₃, m₂.totalCollateralTokens? = some total₂ ∧
        m₃.totalCollateralTokens? = some total₃ ∧
        (lowered ≤ total → total₂ ≤ total) ∧ (lowered ≤ total₂ → total₃ ≤ total₂) := by
  constructor
  · intro hcapped call m' events hcall hperform
    exact ((change_of_perform hperform).total_le hcall hcap hcapped htotal).2
  · intro lowered m₁ m₂ m₃ earlier later events₁ events₂ events₃ hcapped hcalls hset hearlier hlater
    obtain ⟨hcap₁, htotal₁⟩ := collateral_of_setCollateralCap hset
    rw [htotal] at htotal₁
    obtain ⟨hcap₂, total₂, htotal₂, hle₂⟩ := total_le_of_run
      (fun call hcall => hcalls call (List.mem_append_left _ hcall)) hcap₁ hcapped htotal₁ hearlier
    obtain ⟨-, total₃, htotal₃, hle₃⟩ := total_le_of_run
      (fun call hcall => hcalls call (List.mem_append_right _ hcall)) hcap₂ hcapped htotal₂ hlater
    refine ⟨total₂, total₃, htotal₂, htotal₃, fun hlowered => ?_, fun hlowered => ?_⟩
    · exact hle₂.trans (Nat.max_le.mpr ⟨Nat.le_refl _, hlowered⟩)
    · exact hle₃.trans (Nat.max_le.mpr ⟨Nat.le_refl _, hlowered⟩)

/-- A member's tokens are registered as far as they fit. With the cap lowered
below the total no more are, until a redemption takes it under the cap. -/
theorem cappedSample_collateral_capped :
    (∃ m' events total', cappedSample.perform (.mint ⟨"alice"⟩ (.ofUInt64 100) true 0) =
        .ok (m', events) ∧ m'.totalCollateralTokens? = some total' ∧ total'.toNat ≤ 150) ∧
    ∃ m₁ m₂ m₃ events₁ events₂ events₃ total₂ total₃,
      cappedSample.perform (.setCollateralCap (.ofUInt64 100)) = .ok (m₁, events₁) ∧
      m₁.run [.mint ⟨"bob"⟩ (.ofUInt64 10) true 0] = .ok (m₂, events₂) ∧
      m₂.run [.redeem ⟨"bob"⟩ (.ofUInt64 100) 0, .register ⟨"carol"⟩] = .ok (m₃, events₃) ∧
      m₂.totalCollateralTokens? = some total₂ ∧ m₃.totalCollateralTokens? = some total₃ ∧
      total₂ ≤ .ofUInt64 120 ∧ total₃ ≤ total₂ := by
  have hcap : cappedSample.collateralCap? = some (.ofUInt64 150) := rfl
  have htotal : cappedSample.totalCollateralTokens? = some (.ofUInt64 120) := rfl
  obtain ⟨hcapped, hlowered⟩ := collateral_capped hcap htotal
  refine ⟨?_, ?_⟩
  · obtain ⟨m', events, hmint⟩ : ∃ m' events, cappedSample.perform
      (.mint ⟨"alice"⟩ (.ofUInt64 100) true 0) = .ok (m', events) := ⟨_, _, rfl⟩
    obtain ⟨total', htotal', hle⟩ := hcapped (by decide) _ m' events rfl hmint
    exact ⟨m', events, total', hmint, htotal', hle⟩
  · obtain ⟨m₁, m₂, m₃, events₁, events₂, events₃, hset, hearlier, hlater, hfull⟩ :
        ∃ m₁ m₂ m₃ events₁ events₂ events₃,
          cappedSample.perform (.setCollateralCap (.ofUInt64 100)) = .ok (m₁, events₁) ∧
          m₁.run [.mint ⟨"bob"⟩ (.ofUInt64 10) true 0] = .ok (m₂, events₂) ∧
          m₂.run [.redeem ⟨"bob"⟩ (.ofUInt64 100) 0, .register ⟨"carol"⟩] =
            .ok (m₃, events₃) ∧ m₂.totalCollateralTokens? = some (.ofUInt64 120) :=
      ⟨_, _, _, _, _, _, rfl, rfl, rfl, rfl⟩
    obtain ⟨total₂, total₃, htotal₂, htotal₃, hle₂, hle₃⟩ :=
      hlowered _ m₁ m₂ m₃ _ _ _ _ _ (by decide) (by decide) hset hearlier hlater
    cases hfull.symm.trans htotal₂
    exact ⟨m₁, m₂, m₃, events₁, events₂, events₃, _, total₃, hset, hearlier, hlater, hfull, htotal₃,
      hle₂ (by decide), hle₃ (by decide)⟩

end Market

end MoneyMarket
