import MoneyMarket.Proofs.Controller.Debts
import MoneyMarket.Proofs.Controller.Enrolment
import MoneyMarket.Proofs.Controller.Valuation

/-! # No error is fatal

An error is fatal if it means that the state itself is broken. The only one is
that an account is a member of an unknown market, and it is looked for only
where the liquidity of an account is computed. Members of listed markets are
members of known markets, so no query, gate or call ever finds it.
-/

namespace MoneyMarket

open Controller

variable {α β : Type} {c : Controller} {account caller : AccountId} {market : MarketId}
  {prices : Prices} {change : Option Hypothetical} {amount : Amount} {now : UInt64}
  {e : ControllerError}

/-! ## Computations -/

/-- If the computation fails, the error is not fatal. -/
def Recoverable (x : Except ControllerError α) : Prop := ∀ e, x = .error e → e.isFatal = false

theorem recoverable_ok (a : α) : Recoverable (.ok a) := by
  rintro e ⟨⟩

theorem recoverable_pure (a : α) : Recoverable (pure a : Except ControllerError α) :=
  recoverable_ok a

theorem recoverable_error (he : e.isFatal = false) :
    Recoverable (.error e : Except ControllerError α) := by
  rintro e' ⟨⟩
  exact he

theorem Recoverable.bind {x : Except ControllerError α} {f : α → Except ControllerError β}
    (hx : Recoverable x) (hf : ∀ a, Recoverable (f a)) : Recoverable (x >>= f) := by
  intro e herror
  rcases bind_eq_error.mp herror with hfirst | ⟨a, -, hrest⟩
  · exact hx e hfirst
  · exact hf a e hrest

theorem recoverable_liftM (x : Except ArithmeticError α) :
    Recoverable (liftM x : Except ControllerError α) := by
  intro e herror
  obtain ⟨cause, -, rfl⟩ := mapError_eq_error.mp herror
  rfl

/-- No error of a market is fatal for the controller. -/
theorem recoverable_within (market : MarketId) (x : Except MarketError α) :
    Recoverable (ControllerError.within market x) := by
  intro e herror
  obtain ⟨cause, -, rfl⟩ := mapError_eq_error.mp herror
  cases cause with
  | rateModel cause => cases cause <;> rfl
  | arithmetic | excessiveInterestRate | timestampRegression | notFresh | insufficientCash
  | insufficientTokens | sameAccount | insufficientFlashloanRepay | invalidParameter => rfl

theorem recoverable_demand (verdict : Verdict) : Recoverable verdict.demand := by
  cases verdict with
  | allow => exact recoverable_ok ()
  | reject => exact recoverable_error rfl

theorem Recoverable.foldlM {f : β → α → Except ControllerError β} {l : List α}
    (hf : ∀ b, ∀ a ∈ l, Recoverable (f b a)) (b : β) : Recoverable (l.foldlM f b) := by
  intro e herror
  obtain ⟨a, ha, b', hstep⟩ := foldlM_eq_error herror
  exact hf b' a ha e hstep

namespace Controller

theorem recoverable_listed (c : Controller) (market : MarketId) :
    Recoverable (c.listed market) := by
  unfold listed
  split
  · exact recoverable_ok _
  · exact recoverable_error rfl

theorem recoverable_requireListed (c : Controller) (markets : List MarketId) :
    Recoverable (c.requireListed markets) := by
  unfold requireListed
  induction markets with
  | nil => exact recoverable_pure _
  | cons market rest ih =>
      rw [List.forM_eq_forM, List.forM_cons]
      refine Recoverable.bind ?_ fun _ => ih
      intro e herror
      exact recoverable_listed c market e (map_eq_error.mp herror)

/-! ## Liquidity -/

theorem recoverable_priceOf (prices : Prices) (market : MarketId) :
    Recoverable (priceOf prices market) := by
  unfold priceOf
  split
  · exact recoverable_ok _
  · exact recoverable_error rfl

/-- A hypothetical change is computed. -/
theorem recoverable_adjust {adjusted : Option Hypothetical} {value : Wad}
    {figure : Hypothetical → Amount} {sum : Amount} {f : Amount → Except ControllerError β}
    (hf : ∀ sum, Recoverable (f sum)) :
    Recoverable (match adjusted with
      | some a => liftM (value.mulTruncateAdd (figure a) sum) >>= f
      | none => pure sum >>= f) := by
  cases adjusted with
  | none => exact hf sum
  | some a => exact (recoverable_liftM _).bind hf

/-- Adding a market is fatal only if it is unknown and not the one that changes. -/
theorem recoverable_addMarket {sums : Sums}
    (hmarket : (Hypothetical.at? change market).isSome = true ∨ market ∈ c.known) :
    Recoverable (c.addMarket account change prices sums market) := by
  unfold addMarket
  unfold Hypothetical.at? at hmarket
  dsimp only
  generalize change.filter (fun a => decide (a.market = market)) = adjusted at hmarket ⊢
  cases hget : c.markets.get? market with
  | none =>
      have hadjusted : adjusted.isSome = true := by
        refine hmarket.resolve_right fun hknown => ?_
        obtain ⟨listing, hlisting⟩ := mem_known.mp hknown
        cases hget.symm.trans hlisting
      rw [if_pos hadjusted]
      exact recoverable_error rfl
  | some listing =>
      refine (recoverable_priceOf _ _).bind fun price => ?_
      refine (recoverable_liftM _).bind fun position => ?_
      refine (recoverable_liftM _).bind fun owed => ?_
      refine recoverable_adjust fun owed => ?_
      split
      · exact recoverable_pure _
      · refine (recoverable_liftM _).bind fun underlying => ?_
        refine (recoverable_liftM _).bind fun value => ?_
        refine (recoverable_liftM _).bind fun collateral => ?_
        exact recoverable_adjust fun required => recoverable_pure _

/-- The listed markets that an account is a member of are known. -/
theorem recoverable_liquidityAfter (hc : c.Enrolled) :
    Recoverable (c.liquidityAfter account change prices) := by
  refine (Recoverable.foldlM ?_ _).bind fun sums => recoverable_pure _
  intro sums market hmarket
  apply recoverable_addMarket
  cases change with
  | none => exact .inr (hc.known_of_mem_exposure hmarket)
  | some a =>
      rcases Name.mem_insertDistinct.mp hmarket with rfl | hmarket
      · exact .inl (Option.isSome_iff_exists.mpr ⟨a, Hypothetical.at?_self a⟩)
      · exact .inr (hc.known_of_mem_exposure hmarket)

/-! ## Gates -/

theorem recoverable_capRejection? (kind : CapKind) (cap current delta : Amount) :
    Recoverable (capRejection? kind cap current delta) := by
  unfold capRejection?
  split
  · exact recoverable_pure _
  · exact (recoverable_liftM _).bind fun _ => recoverable_pure _

theorem recoverable_mintVerdict (c : Controller) (market : MarketId) (amount : Amount) :
    Recoverable (c.mintVerdict market amount) := by
  unfold mintVerdict
  cases c.listed? market with
  | none => exact recoverable_pure _
  | some listing =>
      dsimp only
      split
      · exact recoverable_pure _
      · refine (recoverable_liftM _).bind fun supplied => ?_
        refine (recoverable_capRejection? _ _ _ _).bind fun rejection => ?_
        cases rejection <;> exact recoverable_pure _

theorem recoverable_redeemVerdict (hc : c.Enrolled) :
    Recoverable (c.redeemVerdict market account amount prices) := by
  unfold redeemVerdict
  split
  · exact recoverable_pure _
  · split
    · exact recoverable_pure _
    · exact (recoverable_liquidityAfter hc).bind fun _ => recoverable_pure _

theorem recoverable_borrowVerdict {entering : Option Amount} (hc : c.Enrolled) :
    Recoverable (c.borrowVerdict market account amount entering prices) := by
  unfold borrowVerdict
  cases c.listed? market with
  | none => exact recoverable_pure _
  | some listing =>
      dsimp only
      split
      · exact recoverable_pure _
      · refine (recoverable_priceOf _ _).bind fun price => ?_
        refine (recoverable_capRejection? _ _ _ _).bind fun rejection => ?_
        cases rejection with
        | none => exact (recoverable_liquidityAfter hc).bind fun _ => recoverable_pure _
        | some rejection => exact recoverable_pure _

theorem recoverable_transferVerdict (hc : c.Enrolled) :
    Recoverable (c.transferVerdict market account amount prices) := by
  unfold transferVerdict
  split
  · exact recoverable_ok _
  · exact recoverable_redeemVerdict hc

theorem recoverable_liquidationVerdict {marketCollateral : MarketId} (hc : c.Enrolled) :
    Recoverable (c.liquidationVerdict market marketCollateral account amount prices) := by
  unfold liquidationVerdict
  cases c.listed? market with
  | none => exact recoverable_pure _
  | some borrowed =>
      dsimp only
      split
      · exact recoverable_pure _
      split
      · exact recoverable_pure _
      refine (recoverable_liquidityAfter hc).bind fun liquidity => ?_
      split
      · exact recoverable_pure _
      refine (recoverable_liftM _).bind fun owed => ?_
      refine (recoverable_liftM _).bind fun maxClose => ?_
      split <;> exact recoverable_pure _

theorem recoverable_seizeTokens {marketCollateral : MarketId} :
    Recoverable (c.seizeTokens market marketCollateral amount prices) := by
  unfold seizeTokens
  refine (recoverable_priceOf _ _).bind fun priceBorrowed => ?_
  refine (recoverable_priceOf _ _).bind fun priceCollateral => ?_
  cases c.market? marketCollateral with
  | none => exact recoverable_error rfl
  | some collateral =>
      refine (recoverable_liftM _).bind fun rate => ?_
      refine (recoverable_liftM _).bind fun numerator => ?_
      refine (recoverable_liftM _).bind fun denominator => ?_
      refine (recoverable_liftM _).bind fun ratio => ?_
      exact recoverable_liftM _

end Controller

/-! ## Operations -/

namespace Operation

variable {P : Controller → Prop}

/-- Wherever something holds, the operation succeeds or its error is not fatal. -/
def Recovers (P : Controller → Prop) (op : Operation α) : Prop :=
  ∀ c, P c → Recoverable (op.runOn c).1

theorem recovers_pure (a : α) : (pure a : Operation α).Recovers P :=
  fun _ _ => recoverable_ok a

theorem recovers_throw (he : e.isFatal = false) : (throw e : Operation α).Recovers P :=
  fun _ _ => recoverable_error he

theorem recovers_liftM {x : Except ControllerError α} (hx : Recoverable x) :
    (liftM x : Operation α).Recovers P := by
  intro c _
  rw [runOn_liftM]
  exact hx

theorem recovers_liftM_arithmetic (x : Except ArithmeticError α) :
    (liftM x : Operation α).Recovers P := by
  intro c _
  rw [runOn_liftM_arithmetic]
  exact recoverable_liftM x

/-- What follows a success has to recover from there. -/
theorem Recovers.bind_ok {x : Operation α} {f : α → Operation β} (hx : x.Recovers P)
    (hf : ∀ c a c', P c → x.runOn c = (.ok a, c') → Recoverable ((f a).runOn c').1) :
    (x >>= f).Recovers P := by
  intro c hc
  have herror := hx c hc
  rw [runOn_bind]
  cases hrun : x.runOn c with
  | mk result c' =>
      rw [hrun] at herror
      cases result with
      | ok a => exact hf c a c' hc hrun
      | error e => exact recoverable_error (herror e rfl)

theorem Recovers.bind {x : Operation α} {f : α → Operation β} (hx : x.Recovers P)
    (hkeeps : x.Keeps P) (hf : ∀ a, (f a).Recovers P) : (x >>= f).Recovers P := by
  refine hx.bind_ok ?_
  intro c a c' hc hrun
  have hc' := hkeeps c hc
  rw [hrun] at hc'
  exact hf a c' hc'

/-- What recovers everywhere may follow anything. -/
theorem Recovers.bind_free {x : Operation α} {f : α → Operation β} (hx : x.Recovers P)
    (hf : ∀ a, (f a).Recovers fun _ => True) : (x >>= f).Recovers P :=
  hx.bind_ok fun _ a c' _ _ => hf a c' trivial

theorem Recovers.bind_pure {x : Operation α} (hx : x.Recovers P) (f : α → β) :
    (x >>= fun a => pure (f a)).Recovers P :=
  hx.bind_free fun _ => recovers_pure _

theorem Recovers.liftM_bind {x : Except ControllerError α} {f : α → Operation β}
    (hx : Recoverable x) (hf : ∀ a, (f a).Recovers P) : (liftM x >>= f).Recovers P :=
  (recovers_liftM hx).bind (reads_liftM x).keeps hf

theorem Recovers.get_bind {f : Controller → Operation β} (hf : ∀ c, P c → (f c).Recovers P) :
    (get >>= f).Recovers P := by
  intro c hc
  rw [runOn_get_bind]
  exact hf c hc c hc

theorem recovers_guard {p : Prop} [Decidable p] {k : PUnit → Operation β} {op : Operation β}
    (he : e.isFatal = false) (hop : op.Recovers P) :
    (if p then throw e >>= k else op).Recovers P := by
  split
  · intro c _
    rw [runOn_bind, runOn_throw]
    exact recoverable_error he
  · exact hop

theorem recovers_set_pure (c : Controller) (a : α) :
    (set c >>= fun _ => pure a : Operation α).Recovers P :=
  fun _ _ => recoverable_ok a

theorem recovers_modify_pure (f : Controller → Controller) (a : α) :
    (modify f >>= fun _ => pure a : Operation α).Recovers P :=
  fun _ _ => recoverable_ok a

theorem Recovers.map {x : Operation α} {f : α → β} (hx : x.Recovers P) :
    (f <$> x).Recovers P := by
  rw [map_eq_pure_bind]
  exact hx.bind_pure _

theorem Recovers.mapM {f : α → Operation β} (hf : ∀ a, (f a).Recovers fun _ => True)
    (l : List α) : (l.mapM f).Recovers fun _ => True := by
  induction l with
  | nil => exact recovers_pure []
  | cons a rest ih =>
      rw [List.mapM_cons]
      exact (hf a).bind_free fun b => ih.bind_pure _

/-! ## Parts of operations -/

theorem recovers_onMarket (market : MarketId) (change : Market → Market × α) :
    (onMarket market change).Recovers P := by
  refine Recovers.get_bind fun c _ => ?_
  refine Recovers.liftM_bind (recoverable_listed c market) fun listing => ?_
  exact recovers_set_pure _ _

theorem recovers_tryOnMarket (market : MarketId)
    (change : Market → Except MarketError (Market × α)) :
    (tryOnMarket market change).Recovers P := by
  refine Recovers.get_bind fun c _ => ?_
  refine Recovers.liftM_bind (recoverable_listed c market) fun listing => ?_
  refine Recovers.liftM_bind (recoverable_within market _) fun result => ?_
  exact recovers_set_pure _ _

theorem recovers_onPolicy (market : MarketId) (change : MarketPolicy → MarketPolicy) :
    (onPolicy market change).Recovers P := by
  refine Recovers.get_bind fun c _ => ?_
  refine Recovers.liftM_bind (recoverable_listed c market) fun listing => ?_
  exact recovers_set_pure _ _

theorem recovers_planOn (market : MarketId) (plan : Market → Except MarketError α) :
    (planOn market plan).Recovers P := by
  refine Recovers.get_bind fun c _ => ?_
  refine Recovers.liftM_bind (recoverable_listed c market) fun listing => ?_
  exact recovers_liftM (recoverable_within market _)

theorem Recovers.planOn_bind {plan : Market → Except MarketError α} {f : α → Operation β}
    (hf : ∀ a, (f a).Recovers P) : (planOn market plan >>= f).Recovers P :=
  (recovers_planOn market plan).bind (reads_planOn plan).keeps hf

theorem Recovers.passGate_bind {gate : Controller → Except ControllerError Verdict}
    {f : Unit → Operation β} (hgate : ∀ c, P c → Recoverable (gate c))
    (hf : (f ()).Recovers P) : (passGate gate >>= f).Recovers P := by
  refine Recovers.bind ?_ (reads_passGate gate).keeps fun _ => hf
  refine Recovers.get_bind fun c hc => ?_
  refine Recovers.liftM_bind (hgate c hc) fun verdict => ?_
  exact recovers_liftM (recoverable_demand verdict)

theorem recovers_requireAdmin (caller : AccountId) (privilege : Privilege) :
    (requireAdmin caller privilege).Recovers P := by
  refine Recovers.get_bind fun c _ => ?_
  split
  · exact recovers_throw rfl
  · exact recovers_pure _

theorem recovers_requireAdminOr (guardian : Controller → Option AccountId) (caller : AccountId)
    (privilege : Privilege) : (requireAdminOr guardian caller privilege).Recovers P := by
  refine Recovers.get_bind fun c _ => ?_
  split
  · exact recovers_requireAdmin caller privilege
  · exact recovers_pure _

theorem recovers_requirePauseRights (caller : AccountId) (paused : Bool) (privilege : Privilege) :
    (requirePauseRights caller paused privilege).Recovers P := by
  unfold requirePauseRights
  split
  · exact recovers_requireAdminOr _ caller privilege
  · exact recovers_requireAdmin caller privilege

theorem Recovers.administered {privilege : Privilege} {op : Operation α} (hop : op.Recovers P) :
    (requireAdmin caller privilege >>= fun _ => op).Recovers P :=
  (recovers_requireAdmin caller privilege).bind (reads_requireAdmin caller privilege).keeps
    fun _ => hop

/-! ## What users do -/

theorem recovers_mint : (mint account market amount now).Recovers P := by
  refine Recovers.get_bind fun c _ => Recovers.planOn_bind fun plan => ?_
  refine Recovers.passGate_bind (fun c _ => recoverable_mintVerdict c market amount) ?_
  exact recovers_onMarket _ _

theorem recovers_redeem : (redeem account market amount now prices).Recovers Enrolled := by
  refine Recovers.planOn_bind fun plan => ?_
  refine Recovers.passGate_bind (fun c hc => recoverable_redeemVerdict hc) ?_
  exact recovers_onMarket _ _

theorem recovers_redeemUnderlying :
    (redeemUnderlying account market amount now prices).Recovers Enrolled := by
  refine Recovers.planOn_bind fun plan => ?_
  refine Recovers.passGate_bind (fun c hc => recoverable_redeemVerdict hc) ?_
  exact recovers_onMarket _ _

theorem recovers_enterMarket : (enterMarket account market).Recovers P := by
  refine Recovers.get_bind fun c _ => ?_
  refine Recovers.liftM_bind (recoverable_listed c market) fun listing => ?_
  split
  · exact recovers_pure _
  refine Recovers.liftM_bind (recoverable_within market _) fun plan => ?_
  cases plan with
  | none => exact recovers_modify_pure _ _
  | some plan => exact (recovers_onMarket _ _).bind_free fun _ => recovers_modify_pure _ _

theorem recovers_enterMarkets {markets : List MarketId} :
    (enterMarkets account markets).Recovers P := by
  refine Recovers.get_bind fun c _ => ?_
  refine (recovers_liftM (recoverable_requireListed c markets)).bind_free fun _ => ?_
  exact (Recovers.mapM (fun _ => recovers_enterMarket) markets).bind_pure _

theorem recovers_leaveMarket : (leaveMarket account market prices).Recovers Enrolled := by
  refine Recovers.get_bind fun c hc => ?_
  refine Recovers.liftM_bind (recoverable_listed c market) fun listing => ?_
  split
  · exact recovers_pure _
  refine recovers_guard rfl ?_
  refine Recovers.liftM_bind (recoverable_redeemVerdict hc) fun verdict => ?_
  refine Recovers.liftM_bind (recoverable_demand verdict) fun _ => ?_
  refine Recovers.liftM_bind (recoverable_within market _) fun plan => ?_
  cases plan with
  | none => exact recovers_modify_pure _ _
  | some plan => exact (recovers_onMarket _ _).bind_free fun _ => recovers_modify_pure _ _

theorem recovers_borrow : (borrow account market amount now prices).Recovers Enrolled := by
  refine Recovers.planOn_bind fun plan => Recovers.get_bind fun c _ => ?_
  have hsettle : ∀ entering : Option Amount, Recovers Enrolled (do
      passGate fun c => c.borrowVerdict market account amount entering prices
      let entered ← if entering.isSome then enterMarket account market else pure []
      let events ← onMarket market fun m => m.settleBorrow plan
      return entered ++ events) := by
    intro entering
    refine Recovers.passGate_bind (fun c hc => recoverable_borrowVerdict hc) ?_
    split
    · exact recovers_enterMarket.bind_free fun _ => (recovers_onMarket _ _).bind_pure _
    · exact (recovers_pure []).bind_free fun _ => (recovers_onMarket _ _).bind_pure _
  split
  · exact (recovers_pure none).bind (reads_pure none).keeps hsettle
  · refine Recovers.bind ?_ (reads_planOn _).map.keeps hsettle
    exact (recovers_planOn _ _).map

theorem recovers_repay {payer : AccountId} :
    (repay payer account market amount now).Recovers P := by
  refine Recovers.passGate_bind (fun c _ => recoverable_ok _) ?_
  exact Recovers.planOn_bind fun plan => recovers_onMarket _ _

theorem recovers_transfer {target : AccountId} :
    (transfer account target market amount prices).Recovers Enrolled := by
  refine Recovers.get_bind fun c _ => Recovers.planOn_bind fun plan => ?_
  refine Recovers.passGate_bind (fun c hc => recoverable_transferVerdict hc) ?_
  exact recovers_onMarket _ _

theorem recovers_flashloan {repaid : Amount} :
    (flashloan account market amount repaid now).Recovers P := by
  refine Recovers.passGate_bind (fun c _ => recoverable_ok _) ?_
  exact Recovers.planOn_bind fun plan => recovers_onMarket _ _

theorem recovers_requireFresh : (requireFresh market now).Recovers P := by
  refine Recovers.get_bind fun c _ => ?_
  refine Recovers.liftM_bind (recoverable_listed c market) fun listing => ?_
  split
  · exact recovers_throw rfl
  · exact recovers_pure _

theorem recovers_liquidate {liquidator : AccountId} {marketCollateral : MarketId} :
    (liquidate liquidator account market marketCollateral amount now prices).Recovers
      Enrolled := by
  refine recovers_guard rfl (recovers_guard rfl ?_)
  refine recovers_requireFresh.bind (reads_requireFresh _ _).keeps fun _ => ?_
  refine recovers_requireFresh.bind (reads_requireFresh _ _).keeps fun _ => ?_
  refine Recovers.passGate_bind (fun c hc => recoverable_liquidationVerdict hc) ?_
  refine Recovers.passGate_bind (fun c _ => recoverable_ok _) ?_
  refine Recovers.planOn_bind fun repayment => Recovers.get_bind fun c _ => ?_
  refine Recovers.liftM_bind recoverable_seizeTokens fun seizeTokens => ?_
  refine Recovers.liftM_bind (recoverable_listed _ _) fun collateral => ?_
  refine recovers_guard rfl ?_
  refine Recovers.passGate_bind (fun c _ => recoverable_ok _) ?_
  refine Recovers.planOn_bind fun seizure => ?_
  refine (recovers_onMarket _ _).bind_free fun repaid => ?_
  exact (recovers_onMarket _ _).bind_pure _

theorem recovers_accrueAll : (accrueAll now).Recovers P := by
  intro c _
  refine Recovers.get_bind (P := fun _ => True) (fun c _ => ?_) c trivial
  exact (Recovers.mapM (fun _ => recovers_tryOnMarket _ _) _).bind_pure _

/-! ## Administration -/

theorem recovers_listMarket {m : Market} : (listMarket caller m).Recovers P := by
  refine Recovers.administered (Recovers.get_bind fun c _ => ?_)
  exact recovers_guard rfl (recovers_set_pure _ _)

theorem recovers_delistMarket : (delistMarket caller market).Recovers P := by
  refine Recovers.administered (Recovers.get_bind fun c _ => ?_)
  refine Recovers.liftM_bind (recoverable_listed c market) fun listing => ?_
  refine recovers_guard rfl ?_
  exact (recovers_onPolicy _ _).bind_free fun _ => recovers_modify_pure _ _

theorem recovers_setCollateralFactor {collateralFactor : Wad} :
    (setCollateralFactor caller market collateralFactor prices).Recovers P := by
  refine Recovers.administered (Recovers.get_bind fun c _ => ?_)
  refine Recovers.liftM_bind (recoverable_listed c market) fun listing => ?_
  refine recovers_guard rfl (recovers_guard rfl ?_)
  exact (recovers_onPolicy _ _).bind_pure _

theorem recovers_setCreditLimit : (setCreditLimit caller account amount).Recovers P :=
  (recovers_modify_pure _ _).administered

theorem recovers_setCloseFactor {closeFactor : Wad} :
    (setCloseFactor caller closeFactor).Recovers P := by
  refine Recovers.administered ?_
  refine (recovers_liftM_arithmetic _).bind (reads_liftM_arithmetic _).keeps fun min => ?_
  refine (recovers_liftM_arithmetic _).bind (reads_liftM_arithmetic _).keeps fun max => ?_
  exact recovers_guard rfl (Recovers.get_bind fun c _ => recovers_set_pure _ _)

theorem recovers_setLiquidationIncentive {liquidationIncentive : Wad} :
    (setLiquidationIncentive caller liquidationIncentive).Recovers P := by
  refine Recovers.administered (recovers_guard rfl ?_)
  exact Recovers.get_bind fun c _ => recovers_set_pure _ _

theorem recovers_setCaps {caps : List (MarketId × Amount)}
    {change : Amount → MarketPolicy → MarketPolicy} {tells : MarketId → Amount → Event} :
    (setCaps caps change tells).Recovers P := by
  refine Recovers.get_bind fun c _ => ?_
  refine (recovers_liftM (recoverable_requireListed c _)).bind_free fun _ => ?_
  exact Recovers.mapM (fun _ => (recovers_onPolicy _ _).bind_pure _) caps

theorem recovers_setSupplyCaps {caps : List (MarketId × Amount)} :
    (setSupplyCaps caller caps).Recovers P :=
  (recovers_requireAdminOr _ caller _).bind_free fun _ => recovers_setCaps

theorem recovers_setBorrowCaps {caps : List (MarketId × Amount)} :
    (setBorrowCaps caller caps).Recovers P :=
  (recovers_requireAdminOr _ caller _).bind_free fun _ => recovers_setCaps

theorem recovers_pauseOnMarket {action : Action} {paused : Bool}
    {change : MarketPolicy → MarketPolicy} :
    (pauseOnMarket caller market action paused change).Recovers P :=
  (recovers_requirePauseRights caller paused _).bind_free fun _ =>
    (recovers_onPolicy market change).bind_pure _

theorem recovers_setTransferPaused {paused : Bool} :
    (setTransferPaused caller paused).Recovers P :=
  (recovers_requirePauseRights caller paused _).bind_free fun _ => recovers_modify_pure _ _

theorem recovers_setSeizePaused {paused : Bool} : (setSeizePaused caller paused).Recovers P :=
  (recovers_requirePauseRights caller paused _).bind_free fun _ => recovers_modify_pure _ _

theorem recovers_setAdmin : (setAdmin caller account).Recovers P :=
  Recovers.administered (Recovers.get_bind fun _ _ => recovers_set_pure _ _)

end Operation

/-! ## Calls -/

open Operation

theorem Dealing.recovers (dealing : Dealing) : dealing.operation.Recovers Enrolled := by
  cases dealing with
  | mint => exact recovers_mint.map
  | redeem => exact recovers_redeem.map
  | redeemUnderlying => exact recovers_redeemUnderlying.map
  | borrow => exact recovers_borrow.map
  | repay => exact recovers_repay.map
  | transfer => exact recovers_transfer.map
  | flashloan => exact recovers_flashloan.map
  | enterMarket => exact recovers_enterMarket.map
  | enterMarkets => exact recovers_enterMarkets.map
  | leaveMarket => exact recovers_leaveMarket.map
  | liquidate => exact recovers_liquidate.map
  | addReserves => exact (recovers_tryOnMarket _ _).map

/-- No call fails fatally where memberships and debts agree. -/
theorem Controller.Call.recovers (call : Call) : call.operation.Recovers Enrolled := by
  cases call with
  | deal dealing => exact dealing.recovers
  | accrue => exact (recovers_tryOnMarket _ _).map
  | accrueAll => exact recovers_accrueAll.map
  | listMarket => exact recovers_listMarket.map
  | delistMarket => exact recovers_delistMarket.map
  | setCollateralFactor => exact recovers_setCollateralFactor.map
  | setCreditLimit => exact recovers_setCreditLimit.map
  | setCloseFactor => exact recovers_setCloseFactor.map
  | setLiquidationIncentive => exact recovers_setLiquidationIncentive.map
  | setSupplyCaps => exact recovers_setSupplyCaps.map
  | setBorrowCaps => exact recovers_setBorrowCaps.map
  | setMintPaused => exact recovers_pauseOnMarket.map
  | setBorrowPaused => exact recovers_pauseOnMarket.map
  | setFlashloanPaused => exact recovers_pauseOnMarket.map
  | setTransferPaused => exact recovers_setTransferPaused.map
  | setSeizePaused => exact recovers_setSeizePaused.map
  | setAdmin => exact recovers_setAdmin.map
  | setPauseGuardian => exact (recovers_modify_pure _ _).administered.map
  | setSupplyCapGuardian => exact (recovers_modify_pure _ _).administered.map
  | setBorrowCapGuardian => exact (recovers_modify_pure _ _).administered.map
  | setReserveFactor => exact (recovers_tryOnMarket _ _).administered.map
  | setCollateralCap => exact (recovers_tryOnMarket _ _).administered.map
  | setInterestRateModel => exact (recovers_tryOnMarket _ _).administered.map
  | reduceReserves => exact (recovers_tryOnMarket _ _).administered.map

/-- In a reachable controller, accounts with memberships are members of listed
markets only, of each of them once, and who owes in a listed market is a member
of it. So no query, no gate and no call fails fatally, and neither does listing
any market at all. -/
theorem Controller.Reachable.memberships_sound (hc : c.Reachable) :
    (∀ account markets, c.memberships.get? account = some markets →
      markets ≠ [] ∧ markets.Nodup ∧ ∀ market ∈ markets, c.isListed market = true) ∧
    (∀ account market listing, c.listed? market = some listing →
      listing.state.hasDebt account = true → c.isMember account market = true) ∧
    (∀ account market other tokens amount entering prices,
      Recoverable (c.liquidity account prices) ∧
      Recoverable (c.liquidityIf account market tokens amount prices) ∧
      Recoverable (c.mintVerdict market amount) ∧
      Recoverable (c.redeemVerdict market account tokens prices) ∧
      Recoverable (c.borrowVerdict market account amount entering prices) ∧
      Recoverable (c.transferVerdict market account tokens prices) ∧
      Recoverable (c.liquidationVerdict market other account amount prices) ∧
      Recoverable (c.seizeTokens market other amount prices)) ∧
    (∀ call : Call, Recoverable (call.operation.runOn c).1) ∧
    ∀ caller m, Recoverable ((listMarket caller m).runOn c).1 := by
  have henrolled := hc.enrolled
  refine ⟨?_, henrolled.debtors, ?_, ?_, ?_⟩
  · intro account markets hmarkets
    have hof : c.memberships.of account = markets := congrArg (Option.getD · []) hmarkets
    have hnodup := henrolled.nodup account
    rw [marketsOf, hof] at hnodup
    refine ⟨?_, hnodup, ?_⟩
    · rintro rfl
      exact henrolled.noBlanks account hmarkets
    · intro market hmarket
      refine henrolled.listed account market (isMember_iff.mpr ?_)
      rw [hof]
      exact hmarket
  · intro account market other tokens amount entering prices
    exact ⟨recoverable_liquidityAfter henrolled, recoverable_liquidityAfter henrolled,
      recoverable_mintVerdict _ _ _, recoverable_redeemVerdict henrolled,
      recoverable_borrowVerdict henrolled, recoverable_transferVerdict henrolled,
      recoverable_liquidationVerdict henrolled, recoverable_seizeTokens⟩
  · intro call
    exact call.recovers c henrolled
  · intro caller m
    exact recovers_listMarket (P := fun _ => True) c trivial

/-- The borrower entered the second of its markets by borrowing there. -/
theorem Controller.lentSample_memberships_sound :
    lentSample.Reachable ∧
      lentSample.memberships.get? ⟨"bob"⟩ = some [⟨"jETH"⟩, ⟨"jUSD"⟩] ∧
      lentSample.isListed ⟨"jUSD"⟩ = true ∧
      Recoverable (lentSample.liquidity ⟨"bob"⟩ samplePrices) := by
  have hbob : lentSample.memberships.get? ⟨"bob"⟩ = some [⟨"jETH"⟩, ⟨"jUSD"⟩] := by
    decide +kernel
  obtain ⟨hmemberships, -, hqueries, -⟩ := lentSample_reachable.memberships_sound
  refine ⟨lentSample_reachable, hbob, ?_, ?_⟩
  · exact (hmemberships _ _ hbob).2.2 _ (by simp)
  · exact (hqueries ⟨"bob"⟩ ⟨"jUSD"⟩ ⟨"jUSD"⟩ 0 0 none samplePrices).1

end MoneyMarket
