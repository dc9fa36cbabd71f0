import Frogop.Pool.BtcQuote.Buffers
import Frogop.Pool.BtcQuote.Reservation
import Mathlib.Algebra.Order.Field.Rat
import Mathlib.Algebra.Order.Ring.Abs
import Mathlib.Tactic.FieldSimp
import Mathlib.Tactic.Linarith
import Mathlib.Tactic.Ring

/-!
# The price of a reservation

`getBtcPrice` hands on what NativeSwap answers to `getQuote(token, 100000)`, the base units of the
token that 100000 satoshis buy. `reserveOption` multiplies by it as if it were satoshis per token.
-/

namespace Frogop.BtcQuote

open Outcome World

/-! ### What a premium is worth -/

/-- The satoshis of a quote, `BTC_QUOTE_SATS` of the indexer. -/
def quoteSats : ℕ := 100000

/-- The amount is the value of a premium when `quoteSats` satoshis buy `quote` units, up to the
rounding of a rate with 18 decimals. -/
def Fair (premium quote amount : ℕ) : Prop :=
  |(amount : ℚ) - premium * quoteSats / quote| ≤ 1 + (premium : ℚ) / precision

/-- The rate the indexer stores for the same quote: `pollPrices`, scaled by `PRECISION`. -/
def satsPerToken (tokensPerQuote : ℕ) : ℕ := quoteSats * precision * precision / tokensPerQuote

section

variable {premium quote quote' amount amount' : ℕ}

/-- The same without fractions. -/
lemma fair_iff (hquote : 0 < quote) : Fair premium quote amount ↔
    amount * precision * quote ≤ premium * (quoteSats * precision) + (precision + premium) * quote ∧
      premium * (quoteSats * precision) ≤ (amount * precision + precision + premium) * quote := by
  have hq : (0 : ℚ) < quote := by exact_mod_cast hquote
  have hp : (0 : ℚ) < precision := by norm_num [precision]
  have hscale : (0 : ℚ) < precision * quote := mul_pos hp hq
  have hleft : ((amount : ℚ) - premium * quoteSats / quote) * (precision * quote)
      = amount * precision * quote - premium * (quoteSats * precision) := by
    field_simp
  have hright : (1 + (premium : ℚ) / precision) * (precision * quote)
      = (precision + premium) * quote := by
    field_simp
  have hscaled : ∀ d r : ℚ, |d| ≤ r ↔ |d * (precision * quote)| ≤ r * (precision * quote) := by
    intro d r
    rw [abs_mul, abs_of_pos hscale, mul_le_mul_iff_left₀ hscale]
  rw [Fair, hscaled, hleft, hright, abs_le, ← Nat.cast_le (α := ℚ), ← Nat.cast_le (α := ℚ)]
  push_cast
  constructor
  · rintro ⟨hlow, hhigh⟩
    exact ⟨by linarith, by linarith⟩
  · rintro ⟨hhigh, hlow⟩
    exact ⟨by linarith, by linarith⟩

/-- The indexer's rate gives the value. -/
lemma fair_satsPerToken (hquote : 0 < quote) :
    Fair premium quote (premium * satsPerToken quote / (precision * precision)) := by
  have hrate := Nat.div_mul_le_self (quoteSats * precision * precision) quote
  have hrate' := Nat.lt_div_mul_add hquote (a := quoteSats * precision * precision)
  rw [← satsPerToken] at hrate hrate'
  have hvalue := Nat.div_mul_le_self (premium * satsPerToken quote) (precision * precision)
  have hvalue' := Nat.lt_div_mul_add (show 0 < precision * precision by decide)
    (a := premium * satsPerToken quote)
  set rate := satsPerToken quote
  set amount := premium * rate / (precision * precision)
  have hpos : 0 < precision := by decide
  rw [fair_iff hquote]
  constructor
  · refine le_of_mul_le_mul_right ?_ hpos
    have hle : amount * precision * quote * precision
        ≤ premium * (quoteSats * precision) * precision := by
      calc amount * precision * quote * precision
          = amount * (precision * precision) * quote := by ring
        _ ≤ premium * rate * quote := Nat.mul_le_mul_right _ hvalue
        _ = premium * (rate * quote) := by ring
        _ ≤ premium * (quoteSats * precision * precision) := Nat.mul_le_mul_left _ hrate
        _ = premium * (quoteSats * precision) * precision := by ring
    exact hle.trans (Nat.mul_le_mul_right _ (Nat.le_add_right _ _))
  · refine le_of_mul_le_mul_right ?_ hpos
    calc premium * (quoteSats * precision) * precision
        = premium * (quoteSats * precision * precision) := by ring
      _ ≤ premium * (rate * quote + quote) := Nat.mul_le_mul_left _ hrate'.le
      _ = premium * rate * quote + premium * quote := by ring
      _ ≤ (amount * (precision * precision) + precision * precision) * quote
          + premium * quote * precision :=
        Nat.add_le_add (Nat.mul_le_mul_right _ hvalue'.le) (Nat.le_mul_of_pos_right _ hpos)
      _ = (amount * precision + precision + premium) * quote * precision := by ring

/-! ### The two rates -/

/-- The quote at which units per `quoteSats` and satoshis per `precision` units are the same number,
up to rounding. -/
def parityQuote : ℕ := 316227766017

lemma fair_of_parity (hamount : premium * parityQuote / precision = amount) :
    Fair premium parityQuote amount := by
  rw [fair_iff (by decide)]
  have hdiv := Nat.div_add_mod (premium * parityQuote) precision
  have hmod := Nat.mod_lt (premium * parityQuote) (show 0 < precision by decide)
  subst hamount
  simp only [precision, parityQuote, quoteSats] at hdiv hmod ⊢
  omega

/-- The premium that comes closest to `2 ^ 64` satoshis. -/
def largestPremium (quote : ℕ) : ℕ := (u64Size * precision - 1) / quote

/-- It is worth at least `2 ^ 63` satoshis when multiplied. -/
lemma le_two_mul_largestPremium (hquote : 0 < quote) (hlt : quote < u64Size * precision) :
    u64Size * precision ≤ 2 * (largestPremium quote * quote) := by
  have hnear := Nat.lt_div_mul_add hquote (a := u64Size * precision - 1)
  have hpos : 0 < largestPremium quote := Nat.div_pos (by omega) hquote
  have hself : quote ≤ largestPremium quote * quote := Nat.le_mul_of_pos_left _ hpos
  rw [← largestPremium] at hnear
  omega

/-- Above parity the product grows faster than the value. -/
lemma not_fair_of_gt (hgt : parityQuote < quote) (hlarge : 10 ^ 31 ≤ premium * quote)
    (hamount : premium * quote < (amount + 1) * precision) : ¬ Fair premium quote amount := by
  rw [fair_iff (by omega)]
  rintro ⟨hfair, -⟩
  have hgap : quote * quote + 10 ^ 12 * (quote + quoteSats * precision)
      ≤ 10 ^ 12 * (quote * quote) := by
    obtain ⟨d, rfl⟩ := Nat.exists_eq_add_of_le (Nat.succ_le_of_lt hgt)
    simp only [parityQuote, quoteSats, precision]
    nlinarith [Nat.zero_le (d * d)]
  have hscaled := Nat.mul_le_mul_left premium hgap
  have hproduct := Nat.mul_le_mul_right quote hamount.le
  have hbound : premium * quote * quote ≤ 2 * 10 ^ 30 * quote := by
    simp only [precision, quoteSats] at hfair hscaled hproduct ⊢
    nlinarith
  have hsmall := Nat.le_of_mul_le_mul_right hbound (by omega)
  omega

/-- Below parity it falls short of it. -/
lemma not_fair_of_lt (hpos : 0 < quote) (hlt : quote < parityQuote)
    (hlarge : 10 ^ 31 ≤ premium * quote) (hamount : amount * precision ≤ premium * quote) :
    ¬ Fair premium quote amount := by
  rw [fair_iff hpos]
  rintro ⟨-, hfair⟩
  have hgap : quote * quote + quote + 2 * 10 ^ 11 ≤ quoteSats * precision := by
    have hle : quote ≤ 316227766016 := Nat.le_of_lt_succ hlt
    have hsquare := Nat.mul_le_mul hle hle
    simp only [quoteSats, precision]
    omega
  have hscaled := Nat.mul_le_mul_left premium hgap
  have hproduct := Nat.mul_le_mul_right quote hamount
  have hpremium : premium * (2 * 10 ^ 11) ≤ precision * quote := by nlinarith
  have hquote := Nat.mul_le_mul_right quote hpremium
  have hbound : premium * quote * (2 * 10 ^ 11) ≤ precision * (quoteSats * precision) := by
    nlinarith
  simp only [precision, quoteSats] at hbound
  omega

lemma not_fair_of_ne (hquote : 0 < quote) (hne : quote ≠ parityQuote)
    (hlt : quote < u64Size * precision) :
    ¬ Fair (largestPremium quote) quote (largestPremium quote * quote / precision) := by
  have hlarge : 10 ^ 31 ≤ largestPremium quote * quote := by
    have hle := le_two_mul_largestPremium hquote hlt
    simp only [u64Size, precision] at hle
    omega
  rcases hne.lt_or_gt with hlow | hhigh
  · exact not_fair_of_lt hquote hlow hlarge (Nat.div_mul_le_self _ _)
  · apply not_fair_of_gt hhigh hlarge
    rw [add_mul, one_mul]
    exact Nat.lt_div_mul_add (by decide)

lemma btcPremium_mono (hle : quote ≤ quote') (h : btcPremium premium quote = .ok amount)
    (h' : btcPremium premium quote' = .ok amount') : amount ≤ amount' := by
  obtain ⟨-, rfl, -⟩ := btcPremium_eq_ok.mp h
  obtain ⟨-, rfl, -⟩ := btcPremium_eq_ok.mp h'
  exact Nat.div_le_div_right (Nat.mul_le_mul_left _ hle)

lemma pos_of_btcPremium (h : btcPremium premium quote = .ok amount) : 0 < premium := by
  obtain ⟨-, rfl, hpos, -⟩ := btcPremium_eq_ok.mp h
  refine Nat.pos_of_ne_zero fun hzero => hpos ?_
  rw [hzero, zero_mul, Nat.zero_div]

/-- No premium has a price at a quote this high. -/
lemma lt_of_btcPremium (h : btcPremium premium quote = .ok amount) :
    quote < u64Size * precision := by
  have hpremium := pos_of_btcPremium h
  obtain ⟨-, rfl, hpos, hfits⟩ := btcPremium_eq_ok.mp h
  have hlt := (Nat.div_lt_iff_lt_mul (by decide)).mp hfits
  exact (Nat.le_mul_of_pos_left _ hpremium).trans_lt hlt

lemma btcPremium_largest (hquote : 0 < quote) (hlt : quote < u64Size * precision) :
    btcPremium (largestPremium quote) quote
      = .ok (largestPremium quote * quote / precision) := by
  have hmost : largestPremium quote * quote ≤ u64Size * precision - 1 := Nat.div_mul_le_self _ _
  have hleast := le_two_mul_largestPremium hquote hlt
  have hsize : u64Size * precision < u256Size := by decide
  have htwo : 2 * precision ≤ u64Size * precision := by decide
  refine btcPremium_eq_ok.mpr ⟨by omega, rfl, ?_, ?_⟩
  · exact (Nat.div_pos (by omega) (by decide)).ne'
  · rw [Nat.div_lt_iff_lt_mul (by decide)]
    omega

end

/-! ### What `reserveOption` charges -/

/-- A `reserveOption` that goes through at the price `quote` and reserves for `amount` satoshis. -/
def Charges (env : Env) (tx : Tx) (i : ℕ) (w : State) (quote amount : ℕ) : Prop :=
  (∃ v, w.queryBtcPrice env tx w.pool.premiumToken = .ok (quote, v)) ∧
    ∃ r w', reserveOption env tx i w = .ok (r, w') ∧
      (w'.own.reservations.get w.own.nextReservationId).btcAmount = amount

/-- In every reachable state, whatever is charged at a quote is fair. -/
def PricedFairly (quote : ℕ) : Prop :=
  ∀ (env : Env) (others : Ledger → Ledger → Prop) (w₀ w : State)
    (h : Lts.History State (Label Call)) (tx : Tx) (i amount : ℕ), Deployed w₀ →
    Lts.Run (Step env others (exec env)) w₀ h w → Charges env tx i w quote amount →
    Fair (w.option i).premium quote amount

section

variable {env : Env} {tx : Tx} {w : State} {i premium quote amount : ℕ} {token : Address}

/-- Without a cached price the bridge answers with the quote of NativeSwap. -/
lemma queryBtcPrice_uncached {price : Bytes32}
    (hcache : (w.bridge (Bridge.priceCacheKey env token Bridge.cacheSlotBlock)).toNat = 0)
    (hquote : tx.getQuote token quoteSats = some price) (hprice : price ≠ Bytes32.zero) :
    ∃ v, w.queryBtcPrice env tx token = .ok (price.toNat, v) := by
  have hbuffer : buffer (36 - 4) [.address token] = token.val := by
    simp [buffer, Field.encode, Field.width]
  have hread : readAddress token.val = .ok (token, []) := by
    have hlen : 32 ≤ token.val.length := token.length_val.ge
    rw [readAddress, dif_pos hlen]
    simp [List.take_of_length_le, List.drop_of_length_le]
  have hsmall : 4 + fieldsWidth [.address token] ≤ 36 := by simp [Field.width]
  have hdata : env.callData 36 [.address token] = .ok token.val :=
    callData_eq_ok.mpr ⟨.inr hsmall, hbuffer⟩
  have hprice : ∃ s, Bridge.getBtcPrice env tx token.val w.bridge = .ok (price, s) := by
    simp only [Bridge.getBtcPrice, hread, ok_bind, hcache, ne_eq, not_true_eq_false, false_and,
      if_false]
    rw [show tx.getQuote token 100000 = some price from hquote]
    simp only [if_neg hprice]
    exact ⟨_, rfl⟩
  obtain ⟨s, hs⟩ := hprice
  refine ⟨{ w with bridge := s }, ?_⟩
  rw [queryBtcPrice, hdata, ok_bind, hs]
  rfl

/-- The amount of a reservation is the product of premium and quote. -/
lemma Charges.btcPremium (h : Charges env tx i w quote amount) :
    BtcQuote.btcPremium (w.option i).premium quote = .ok amount := by
  obtain ⟨⟨v, hquote⟩, r, w', hreserve, rfl⟩ := h
  simp only [reserveOption, bind_eq_ok, require_eq_ok, Prod.exists, addReservation_eq_ok,
    emit_eq_ok, respond_eq_ok, Prod.mk.injEq] at hreserve
  obtain ⟨-, -, -, -, -, -, -, -, -, -, price, w₁, hprice, amount, hamount, pubkey, -, hash, -, n,
    _, ⟨-, rfl, rfl⟩, _, ⟨-, rfl⟩, -, rfl, rfl⟩ := hreserve
  obtain ⟨bridge, rfl⟩ := queryBtcPrice_ok hprice
  rw [hquote] at hprice
  cases hprice
  have hstored := ReservationStorage.get_set_self (s := w.own.reservations)
    (i := w.own.nextReservationId) (r := newReservation tx i amount hash w.own.nextReservationId)
  exact hamount.trans (congrArg (fun r => Except.ok r.btcAmount) hstored.symm)

/-- An option that can be reserved is charged the product. -/
lemma charges_of_reservable (henv : env.withWriters .growing = env) (hr : Reservable env tx i w)
    (hquote : ∃ v, w.queryBtcPrice env tx w.pool.premiumToken = .ok (quote, v))
    (hamount : BtcQuote.btcPremium (w.option i).premium quote = .ok amount) :
    Charges env tx i w quote amount := by
  obtain ⟨⟨r, w'⟩, hreserve⟩ := reserveOption_growing.mpr hr
  rw [henv] at hreserve
  have hcharges : Charges env tx i w quote _ := ⟨hquote, r, w', hreserve, rfl⟩
  have heq := hcharges.btcPremium
  rw [hamount, Except.ok.injEq] at heq
  rwa [← heq] at hcharges

end

/-! ### Options offered at any premium -/

namespace Testnet

/-- Account 10 has registered a key. -/
def registered : State :=
  Frogop.Testnet.next (exec env) world (Frogop.Testnet.tx 10 100) (.registerBtcPubkey pubkey)

/-- A transaction in which NativeSwap answers `quote`. -/
def quotedAt (quote : ℕ) : Tx :=
  { Frogop.Testnet.tx 11 101 with getQuote := fun _ _ => some (Bytes32.ofNat quote) }

lemma run_offered {premium : ℕ} (hpremium : 0 < premium) (others : Ledger → Ledger → Prop) :
    ∃ h w, Lts.Run (Step env others (exec env)) world h w ∧
      exec env (Frogop.Testnet.tx 10 100) (.writeOption 0 1 1000 1 premium) registered
        = .ok ([.u256 0], w) := by
  have hregister : exec env (Frogop.Testnet.tx 10 100) (.registerBtcPubkey pubkey) world
      = .ok ([.boolean true], registered) := Frogop.Testnet.exec_next rfl
  have htransfer : ∃ l, registered.ledger.transferFrom registered.pool.underlying
      env.contractAddress (Frogop.Testnet.account 10) env.contractAddress 1 = .ok l :=
    Ledger.transferFrom_succeeds rfl (.inr (by decide)) (by decide)
  obtain ⟨l, hl⟩ := htransfer
  have hwrite : ∃ w, exec env (Frogop.Testnet.tx 10 100) (.writeOption 0 1 1000 1 premium)
      registered = .ok ([.u256 0], w) := by
    simp only [exec, BtcQuote.writeOption, OptionsPool.writeOption, bind_eq_ok,
      OptionsPool.checkType_eq_ok, OptionsPool.checkTerms_eq_ok, Prod.exists, addOption_eq_ok,
      transferFrom_eq_ok, emit_eq_ok, respond_eq_ok]
    exact ⟨_, .CALL, rfl, (), ⟨⟨by decide, by decide, hpremium⟩, by decide, by decide⟩, 1, rfl, _,
      _, ⟨by decide, rfl⟩, _, ⟨l, hl, rfl⟩, _, ⟨.inl rfl, rfl⟩, .inl rfl, rfl⟩
  obtain ⟨w, hw⟩ := hwrite
  exact ⟨_, w, (Lts.Run.nil.cons (.call (by decide) hregister)).cons (.call (by decide) hw), hw⟩

/-- Any premium can be charged at any quote that gives it a price. -/
lemma charges_offered {premium : ℕ} (hpremium : 0 < premium) (others : Ledger → Ledger → Prop) :
    ∃ h w, Lts.Run (Step env others (exec env)) world h w ∧ (w.option 0).premium = premium ∧
      ∀ quote amount, 0 < quote → quote < u256Size → btcPremium premium quote = .ok amount →
        Charges env (quotedAt quote) 0 w quote amount := by
  obtain ⟨h, w, hrun, hwrite⟩ := run_offered hpremium others
  obtain ⟨t, _, l, ht, -, -, -, -, -, -, -, hw⟩ := OptionsPool.writeOption_ok hwrite
  obtain rfl : t = .CALL := Option.some.inj ht.symm
  have hoption : w.option 0 = newOption (Frogop.Testnet.tx 10 100) .CALL 1 1000 1 premium 0 := by
    rw [hw]
    exact OptionStorage.get_set_self
  have hpool : w.pool.premiumToken = Frogop.Testnet.account 3 ∧ w.pool.pubkeys
      = registered.pool.pubkeys ∧ w.own = registered.own ∧ w.bridge = registered.bridge := by
    rw [hw]
    exact ⟨rfl, rfl, rfl, rfl⟩
  obtain ⟨htoken, hkeys, hown, hbridge⟩ := hpool
  refine ⟨h, w, hrun, by rw [hoption]; rfl, fun quote amount hquote hlt hamount => ?_⟩
  have hprice : ∃ v, w.queryBtcPrice env (quotedAt quote) w.pool.premiumToken = .ok (quote, v) := by
    have hvalue : (Bytes32.ofNat quote).toNat = quote := by
      rw [Bytes32.toNat, Bytes32.ofNat, BigEndian.ofBytes_beBytes]
      exact Nat.mod_eq_of_lt hlt
    have hnever : (w.bridge (Bridge.priceCacheKey env w.pool.premiumToken
        Bridge.cacheSlotBlock)).toNat = 0 := by
      rw [hbridge]
      rfl
    have hanswer : (quotedAt quote).getQuote w.pool.premiumToken quoteSats
        = some (Bytes32.ofNat quote) := rfl
    have hpositive : Bytes32.ofNat quote ≠ Bytes32.zero := by
      intro hzero
      have hzero' := congrArg Bytes32.toNat hzero
      rw [hvalue] at hzero'
      exact hquote.ne' hzero'
    have hcached := queryBtcPrice_uncached hnever hanswer hpositive
    rwa [hvalue] at hcached
  have hcharged : btcPremium (w.option 0).premium quote = .ok amount := by
    rw [hoption]
    exact hamount
  obtain ⟨v, hv⟩ := hprice
  have hexpiry : (w.option 0).expiryBlock = 1000 := by rw [hoption]; rfl
  have hwriter : (w.option 0).writer = Frogop.Testnet.account 10 := by rw [hoption]; rfl
  have hreservable : Reservable env (quotedAt quote) 0 w := by
    refine ⟨?_, by rw [hoption]; rfl, ?_, ?_, ?_, ⟨quote, v, amount, hv, hcharged⟩,
      ⟨pubkey, csvScriptHash, ?_, ?_⟩, ?_⟩
    · rw [OptionStorage.existsAt_iff, hwriter]
      decide
    · rw [hexpiry]
      exact (by decide : 101 < 1000)
    · rw [hexpiry]
      exact (by decide : u64Add 101 reservationExpiryBlocks < 1000)
    · rw [hwriter]
      exact (by decide : Frogop.Testnet.account 11 ≠ Frogop.Testnet.account 10)
    · rw [hwriter, PoolStorage.registeredPubkey, hkeys]
      rfl
    · exact queryCsvScriptHash_eq rfl (by decide) (by decide)
    · rw [hown]
      decide
  exact charges_of_reservable rfl hreservable ⟨v, hv⟩ hcharged

end Testnet

/-- The charges are fair at one quote, and where no premium can be charged at all; the indexer's
rate is fair at every quote. The higher the quote, the more is charged. -/
theorem pricedFairly_iff {quote : ℕ} (hquote : 0 < quote) :
    (PricedFairly quote ↔ quote = parityQuote ∨ u64Size * precision ≤ quote) ∧
    (∀ premium, Fair premium quote (premium * satsPerToken quote / (precision * precision))) ∧
    ∀ env tx tx' i j w w' quote' amount amount', quote ≤ quote' →
      (w.option i).premium = (w'.option j).premium → Charges env tx i w quote amount →
      Charges env tx' j w' quote' amount' → amount ≤ amount' := by
  refine ⟨⟨fun hfair => ?_, ?_⟩, fun _ => fair_satsPerToken hquote, ?_⟩
  · by_contra hnot
    rw [not_or, not_le] at hnot
    obtain ⟨hne, hlt⟩ := hnot
    have hsize : u64Size * precision ≤ u256Size := by decide
    have hamount := btcPremium_largest hquote hlt
    obtain ⟨h, w, hrun, hpremium, hcharges⟩ := Testnet.charges_offered (pos_of_btcPremium hamount)
      (Ledger.FixedAt Testnet.env.contractAddress)
    have hcharged := hfair _ _ _ _ _ _ _ _ Testnet.deployed hrun
      (hcharges quote _ hquote (hlt.trans_le hsize) hamount)
    rw [hpremium] at hcharged
    exact not_fair_of_ne hquote hne hlt hcharged
  · rintro (rfl | hhigh) env others w₀ w h tx i amount hdep hrun hcharges
    · obtain ⟨-, hamount, -⟩ := btcPremium_eq_ok.mp hcharges.btcPremium
      exact fair_of_parity hamount
    · exact absurd (lt_of_btcPremium hcharges.btcPremium) (not_lt.mpr hhigh)
  · intro env tx tx' i j w w' quote' amount amount' hle hpremium hcharges hcharges'
    have hlow := hcharges.btcPremium
    rw [hpremium] at hlow
    exact btcPremium_mono hle hlow hcharges'.btcPremium

/-- At parity everything is charged its value. -/
theorem pricedFairly_parity : PricedFairly parityQuote :=
  (pricedFairly_iff (by decide)).1.mpr (.inl rfl)

/-- At a quote of one token for 100000 satoshis, 100 units of the premium token are charged as 100
satoshis; at twice the quote, as 200. -/
theorem premium_overcharged :
    ¬ PricedFairly (10 ^ 18) ∧
      ∃ tx tx' w, Charges Testnet.env tx 0 w (10 ^ 18) 100 ∧
        Charges Testnet.env tx' 0 w (2 * 10 ^ 18) 200 := by
  have hpos : 0 < 100 := by decide
  obtain ⟨h, w, hrun, hpremium, hcharges⟩ := Testnet.charges_offered hpos
    (Ledger.FixedAt Testnet.env.contractAddress)
  have hlow := hcharges (10 ^ 18) 100 (by decide) (by decide)
    (btcPremium_eq_ok.mpr ⟨by decide, by decide, by decide, by decide⟩)
  have hhigh := hcharges (2 * 10 ^ 18) 200 (by decide) (by decide)
    (btcPremium_eq_ok.mpr ⟨by decide, by decide, by decide, by decide⟩)
  refine ⟨fun hfair => ?_, _, _, w, hlow, hhigh⟩
  have hcharged := hfair _ _ _ _ _ _ _ _ Testnet.deployed hrun hlow
  rw [hpremium, fair_iff (by decide)] at hcharged
  exact absurd hcharged.1 (by decide)

end Frogop.BtcQuote
