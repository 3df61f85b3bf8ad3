import MoneyMarket.Proofs.Controller.Steps

/-! # Soundness of controllers

A controller is sound if all its markets, listed or not, are reachable ones.
Every step keeps that: it changes a market by a successful call only, or lists
one that was just set up.
-/

namespace MoneyMarket

variable {c c' : Controller} {market : MarketId}

/-- All markets are reachable. -/
def Controller.Sound (c : Controller) : Prop :=
  ∀ market listing, c.markets.get? market = some listing → listing.state.Reachable

namespace Controller

theorem Sound.of_markets_eq (hc : c.Sound) (hmarkets : c'.markets = c.markets) : c'.Sound := by
  intro market listing hlisting
  exact hc market listing (hmarkets ▸ hlisting)

theorem Sound.setListing {listing : Listing} (hc : c.Sound) (hlisting : listing.state.Reachable) :
    (c.setListing market listing).Sound := by
  intro other found hfound
  rw [Controller.setListing, Registry.get?_insert] at hfound
  split at hfound
  next =>
    cases hfound
    exact hlisting
  next => exact hc other found hfound

theorem Sound.reachable_of_listed {listing : Listing} (hc : c.Sound)
    (hlisted : c.listed? market = some listing) : listing.state.Reachable :=
  hc market listing (listed?_eq_some.mp hlisted).1

theorem Sound.setPolicy {listing : Listing} (hc : c.Sound)
    (hlisted : c.listed? market = some listing) (policy : MarketPolicy) :
    (c.setListing market { listing with policy }).Sound := by
  have hlisting := hc.reachable_of_listed hlisted
  exact hc.setListing hlisting

theorem Performs.sound {call : Market.Call} (hperforms : c.Performs market call c')
    (hc : c.Sound) : c'.Sound := by
  obtain ⟨listing, state, events, hlisted, hperform, rfl⟩ := hperforms
  exact hc.setListing (.performed (hc.reachable_of_listed hlisted) hperform)

theorem Call.preserves_sound (call : Call) : call.Preserves Sound := by
  intro c c' hc hstep
  cases hstep with
  | performed hperforms => exact hperforms.sound hc
  | entered | left => exact hc.of_markets_eq rfl
  | @listed m hm => exact hc.setListing (.created hm)
  | delisted _ hlisted => exact (hc.setPolicy hlisted _).of_markets_eq rfl
  | policySet hlisted => exact hc.setPolicy hlisted _
  | termsSet hsets => exact hc.of_markets_eq hsets.markets_eq

/-- A controller has no markets at first. -/
theorem sound_of_make {admin : AccountId} {settings : ControllerSettings}
    (hmake : make admin settings = .ok c) : c.Sound := by
  simp only [make, bind_eq_ok, pure_eq_ok] at hmake
  obtain ⟨-, -, closeFactor, -, incentive, -, maximum, -, rfl⟩ := hmake
  intro market listing hlisting
  cases hlisting

theorem Reachable.sound (hc : c.Reachable) : c.Sound :=
  hc.invariant (fun _ _ _ => sound_of_make) Call.preserves_sound

end Controller

end MoneyMarket
