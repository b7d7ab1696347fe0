import Qros.Quant.Strategy.Hash

/-!
# What the input hash determines

The canonical texts are nested brackets with separators, so that
`Qros.Lib.Delimited` reads them back: an object determines the texts of its values
(`canonicalObject_inj`), an array those of its items (`canonicalArray_inj`).  The
preimage of the input hash thus determines the text of every field of every bar,
signal and configuration entry, the signals in their sorted order.

A text determines an integer, a flag or a name.  It determines a number only to
ten decimals and a time stamp only to the second, by design; where the numbers and
time stamps at hand are told apart by their texts, equal preimages mean equal runs
(`run_eq_of_inputPreimage_eq`), and where they are not, they need not
(`inputPreimage_rounds`).
-/

universe u

set_option linter.unusedSectionVars false

namespace Qros.Quant.Strategy

open Qros.Lib.KeySort Qros.Lib.Delimited List

/-- What a character of JSON does to the nesting. -/
def jsonKind (c : Char) : Kind :=
  if c = ',' then .separator
  else if c = '{' ∨ c = '[' then .opening
  else if c = '}' ∨ c = ']' then .closing
  else .plain

abbrev JsonToken (v : Text) : Prop := Token jsonKind v

/-- No character of the text does anything to the nesting. -/
def Plain (v : Text) : Prop := ∀ c ∈ v, jsonKind c = .plain

-- By the text: characters are finitely many, and instance search may try them all.
instance (v : Text) : Decidable (Plain v) := List.decidableBAll (fun c ↦ jsonKind c = .plain) v

theorem Plain.token {v : Text} (h : Plain v) : JsonToken v := Token.of_plain h

/-! ## Objects and arrays -/

/-- The keys of an object: distinct, and without brackets or commas. -/
structure GoodKeys (keys : List Text) : Prop where
  nodup : keys.Nodup
  plain : ∀ k ∈ keys, Plain (canonicalStr k)

instance (keys : List Text) : Decidable (GoodKeys keys) :=
  decidable_of_iff (keys.Nodup ∧ ∀ k ∈ keys, Plain (canonicalStr k))
    ⟨fun h ↦ ⟨h.1, h.2⟩, fun h ↦ ⟨h.nodup, h.plain⟩⟩

theorem member_token {kv : Text × Text} (hk : Plain (canonicalStr kv.1)) (hv : JsonToken kv.2) :
    JsonToken (member kv) ∧ member kv ≠ [] :=
  ⟨hk.token.append (Token.cons rfl hv), cons_ne_nil _ _⟩

theorem members_token {kvs : List (Text × Text)} (hk : GoodKeys (kvs.map Prod.fst))
    (hv : ∀ kv ∈ kvs, JsonToken kv.2) :
    ∀ v ∈ (stableSortBy Prod.fst kvs).map member, JsonToken v ∧ v ≠ [] := by
  intro v hmem
  obtain ⟨kv, hkv, rfl⟩ := mem_map.mp hmem
  have hkv := (mem_stableSortBy _).mp hkv
  exact member_token (hk.plain _ (mem_map_of_mem hkv)) (hv kv hkv)

theorem token_canonicalObject {kvs : List (Text × Text)} (hk : GoodKeys (kvs.map Prod.fst))
    (hv : ∀ kv ∈ kvs, JsonToken kv.2) : JsonToken (canonicalObject kvs) :=
  Inside.bracket rfl rfl (inside_sepBy rfl fun v h ↦ (members_token hk hv v h).1)

theorem token_canonicalArray {items : List Text} (h : ∀ v ∈ items, JsonToken v) :
    JsonToken (canonicalArray items) :=
  Inside.bracket rfl rfl (inside_sepBy rfl h)

theorem canonicalArray_inj {items items' : List Text} (h : ∀ v ∈ items, JsonToken v ∧ v ≠ [])
    (h' : ∀ v ∈ items', JsonToken v ∧ v ≠ []) (heq : canonicalArray items = canonicalArray items') :
    items = items' :=
  (sepBy_inj rfl rfl h h' (List.cons.inj heq).2).1

/-- **An object determines the texts of its values.** -/
theorem canonicalObject_inj {kvs kvs' : List (Text × Text)} {keys : List Text}
    (hk : GoodKeys keys) (heq : canonicalObject kvs = canonicalObject kvs')
    (hkvs : kvs.map Prod.fst = keys) (hkvs' : kvs'.map Prod.fst = keys)
    (hv : ∀ kv ∈ kvs, JsonToken kv.2) (hv' : ∀ kv ∈ kvs', JsonToken kv.2) : kvs = kvs' := by
  have hkeys : kvs.map Prod.fst = kvs'.map Prod.fst := hkvs.trans hkvs'.symm
  subst hkvs
  have hsorted : (stableSortBy Prod.fst kvs).map Prod.fst =
      (stableSortBy Prod.fst kvs').map Prod.fst := by
    have hmap (l : List (Text × Text)) :
        (stableSortBy Prod.fst l).map Prod.fst = (l.map Prod.fst).insertionSort (· ≤ ·) :=
      map_insertionSort _ _ _ _ fun _ _ _ _ ↦ Iff.rfl
    rw [hmap, hmap, hkeys]
  have hmembers := (sepBy_inj rfl rfl (members_token hk hv) (members_token (hkeys ▸ hk) hv')
    (List.cons.inj heq).2).1
  have hsame : stableSortBy Prod.fst kvs = stableSortBy Prod.fst kvs' := by
    generalize stableSortBy Prod.fst kvs = l at hsorted hmembers
    generalize stableSortBy Prod.fst kvs' = l' at hsorted hmembers
    induction l generalizing l' with
    | nil => exact (map_eq_nil_iff.mp hsorted.symm).symm
    | cons a t ih =>
      cases l' with
      | nil => cases hsorted
      | cons b t' =>
        obtain ⟨hab, htt⟩ := List.cons.inj hsorted
        obtain ⟨hm, hmm⟩ := List.cons.inj hmembers
        have hval : a.2 = b.2 := by
          simp only [member, hab, append_cancel_left_eq, List.cons.injEq, true_and] at hm
          exact hm
        rw [Prod.ext hab hval, ih t' htt hmm]
  exact eq_of_perm_of_map_eq _ ((stableSortBy_perm _ kvs).symm.trans
    (hsame ▸ stableSortBy_perm _ kvs')) hkeys hk.nodup

/-! ## Scalars -/

variable {c : Char}

theorem jsonKind_of_isDigit (h : c.isDigit = true) : jsonKind c = .plain := by
  unfold jsonKind
  split
  · subst c
    exact absurd h (by decide)
  · split
    · rename_i hc
      rcases hc with rfl | rfl <;> exact absurd h (by decide)
    · split
      · rename_i hc
        rcases hc with rfl | rfl <;> exact absurd h (by decide)
      · rfl

theorem isDigit_toDigits {n : Nat} (h : c ∈ Nat.toDigits 10 n) : c.isDigit = true :=
  Nat.isDigit_of_mem_toDigits (by decide) (by decide) h

theorem toDigits_injective {n m : Nat} (h : Nat.toDigits 10 n = Nat.toDigits 10 m) : n = m := by
  rw [← @Nat.ofDigitChars_toDigits 10 n (by decide) (by decide), h,
    Nat.ofDigitChars_toDigits (by decide) (by decide)]

@[simp] theorem token_canonicalInt (v : Int) : JsonToken (canonicalInt v) := by
  apply Plain.token
  intro c hc
  unfold canonicalInt at hc
  split at hc
  · rcases mem_cons.mp hc with rfl | hc
    · rfl
    · exact jsonKind_of_isDigit (isDigit_toDigits hc)
  · exact jsonKind_of_isDigit (isDigit_toDigits hc)

theorem canonicalInt_injective {v w : Int} (h : canonicalInt v = canonicalInt w) : v = w := by
  have hsign {n : Nat} {t : Text} (h : Nat.toDigits 10 n = '-' :: t) : False := by
    have hmem : '-' ∈ Nat.toDigits 10 n := h ▸ mem_cons_self
    exact absurd (isDigit_toDigits hmem) (by decide)
  unfold canonicalInt at h
  split at h <;> split at h
  · have := toDigits_injective (List.cons.inj h).2
    omega
  · exact (hsign h.symm).elim
  · exact (hsign h).elim
  · have := toDigits_injective h
    omega

@[simp] theorem token_canonicalBool (b : Bool) : JsonToken (canonicalBool b) :=
  Plain.token (by cases b <;> decide)

theorem canonicalBool_injective {a b : Bool} (h : canonicalBool a = canonicalBool b) : a = b := by
  cases a <;> cases b <;> first | rfl | exact absurd h (by decide)

@[simp] theorem token_canonicalDouble {F : Type u} [Zero F] [LT F] [DecidableLT F] [CFormat F]
    [LawfulCFormat F] (v : F) : JsonToken (canonicalDouble v) := by
  refine Plain.token ?_
  unfold canonicalDouble
  split
  · decide
  · split
    · split <;> decide
    · intro c hc
      rcases LawfulCFormat.fixed10_chars v c hc with h | rfl | rfl
      · exact jsonKind_of_isDigit h
      · rfl
      · rfl

/-! ### Strings -/

/-- Characters that stand for themselves in a string and do nothing outside. -/
def Verbatim (s : Text) : Prop := ∀ c ∈ s, escapeChar c = [c] ∧ jsonKind c = .plain

theorem Verbatim.canonicalStr_eq {s : Text} (h : Verbatim s) :
    canonicalStr s = '"' :: (s ++ ['"']) := by
  have hs : s.flatMap escapeChar = s := by
    induction s with
    | nil => rfl
    | cons c s ih =>
      rw [flatMap_cons, (h c mem_cons_self).1,
        ih fun d hd ↦ h d (mem_cons_of_mem _ hd)]
      rfl
  rw [canonicalStr, hs]

theorem Verbatim.token {s : Text} (h : Verbatim s) : JsonToken (canonicalStr s) := by
  rw [h.canonicalStr_eq]
  exact Token.cons rfl ((Plain.token fun c hc ↦ (h c hc).2).append (Token.cons rfl Token.nil))

theorem Verbatim.canonicalStr_inj {s t : Text} (hs : Verbatim s) (ht : Verbatim t)
    (h : canonicalStr s = canonicalStr t) : s = t := by
  rw [hs.canonicalStr_eq, ht.canonicalStr_eq] at h
  exact append_cancel_right (List.cons.inj h).2

theorem escapeChar_of_isDigit (h : c.isDigit = true) : escapeChar c = [c] := by
  have hne {d : Char} (hd : d.isDigit = false) : c ≠ d := by
    intro hcd
    rw [hcd, hd] at h
    cases h
  have hge : ¬ c.toNat < 32 := by
    simp only [Char.isDigit, Bool.and_eq_true, decide_eq_true_eq] at h
    have : 48 ≤ c.val.toNat := h.1
    simp only [Char.toNat]
    omega
  simp only [escapeChar, if_neg (hne (d := '"') rfl), if_neg (hne (d := '\\') rfl),
    if_neg (hne (d := '\n') rfl), if_neg (hne (d := '\r') rfl), if_neg (hne (d := '\t') rfl),
    if_neg hge]

theorem verbatim_zeroPadded (w : Nat) (n : Int) : Verbatim (zeroPadded w n) := by
  have hdigit {c : Char} (h : c.isDigit = true) : escapeChar c = [c] ∧ jsonKind c = .plain :=
    ⟨escapeChar_of_isDigit h, jsonKind_of_isDigit h⟩
  have hpad {k : Nat} {c : Char} (h : c ∈ List.replicate k '0' ++ Nat.toDigits 10 n.natAbs) :
      c.isDigit = true := by
    rcases mem_append.mp h with h | h
    · rw [eq_of_mem_replicate h]
      rfl
    · exact isDigit_toDigits h
  intro c hc
  unfold zeroPadded at hc
  dsimp only at hc
  split at hc
  · rcases mem_cons.mp hc with rfl | hc
    · exact ⟨rfl, rfl⟩
    · exact hdigit (hpad hc)
  · exact hdigit (hpad hc)

theorem Verbatim.append {s t : Text} (hs : Verbatim s) (ht : Verbatim t) : Verbatim (s ++ t) :=
  fun c hc ↦ (mem_append.mp hc).elim (hs c) (ht c)

theorem Verbatim.cons {s : Text} (hc : escapeChar c = [c] ∧ jsonKind c = .plain) (hs : Verbatim s) :
    Verbatim (c :: s) := by
  intro d hd
  rcases mem_cons.mp hd with rfl | hd
  · exact hc
  · exact hs d hd

theorem verbatim_iso8601 (tp : TimePoint) : Verbatim (iso8601 tp) := by
  unfold iso8601
  have hdash : escapeChar '-' = ['-'] ∧ jsonKind '-' = .plain := by decide
  have htee : escapeChar 'T' = ['T'] ∧ jsonKind 'T' = .plain := by decide
  have hcolon : escapeChar ':' = [':'] ∧ jsonKind ':' = .plain := by decide
  simp only [append_assoc, cons_append]
  exact (verbatim_zeroPadded _ _).append (.cons hdash ((verbatim_zeroPadded _ _).append
    (.cons hdash ((verbatim_zeroPadded _ _).append (.cons htee ((verbatim_zeroPadded _ _).append
    (.cons hcolon ((verbatim_zeroPadded _ _).append (.cons hcolon
    (verbatim_zeroPadded _ _))))))))))

@[simp] theorem token_iso8601 (tp : TimePoint) : JsonToken (canonicalStr (iso8601 tp)) :=
  (verbatim_iso8601 tp).token

@[simp] theorem token_sideName (s : TradeSide) : JsonToken (canonicalStr (sideName s)) :=
  Plain.token (by cases s <;> decide)

@[simp] theorem token_actionName (a : SignalAction) : JsonToken (canonicalStr (actionName a)) :=
  Plain.token (by cases a <;> decide)

@[simp] theorem token_sizingName (p : PositionSizing) : JsonToken (canonicalStr (sizingName p)) :=
  Plain.token (by cases p <;> decide)

@[simp] theorem token_stopName (s : StopType) : JsonToken (canonicalStr (stopName s)) :=
  Plain.token (by cases s <;> decide)

theorem sideName_inj {s t : TradeSide}
    (h : canonicalStr (sideName s) = canonicalStr (sideName t)) : s = t := by
  cases s <;> cases t <;> first | rfl | exact absurd h (by decide)

theorem actionName_inj {a b : SignalAction}
    (h : canonicalStr (actionName a) = canonicalStr (actionName b)) : a = b := by
  cases a <;> cases b <;> first | rfl | exact absurd h (by decide)

theorem sizingName_inj {p q : PositionSizing}
    (h : canonicalStr (sizingName p) = canonicalStr (sizingName q)) : p = q := by
  cases p <;> cases q <;> first | rfl | exact absurd h (by decide)

theorem stopName_inj {s t : StopType}
    (h : canonicalStr (stopName s) = canonicalStr (stopName t)) : s = t := by
  cases s <;> cases t <;> first | rfl | exact absurd h (by decide)

/-! ## What a text tells apart -/

def Determines {α : Type u} (text : α → Text) (l l' : List α) : Prop :=
  ∀ a ∈ l, ∀ b ∈ l', text a = text b → a = b

theorem Determines.eq {α : Type u} {text : α → Text} {l l' : List α} (h : Determines text l l')
    (heq : l.map text = l'.map text) : l = l' := by
  induction l generalizing l' with
  | nil => exact (map_eq_nil_iff.mp heq.symm).symm
  | cons a t ih =>
    cases l' with
    | nil => cases heq
    | cons b t' =>
      obtain ⟨hab, htt⟩ := List.cons.inj heq
      rw [h a mem_cons_self b mem_cons_self hab,
        ih (fun x hx y hy ↦ h x (mem_cons_of_mem _ hx) y (mem_cons_of_mem _ hy)) htt]

theorem Determines.mono {α : Type u} {text : α → Text} {l l' m m' : List α}
    (h : Determines text m m') (hl : l ⊆ m) (hl' : l' ⊆ m') : Determines text l l' :=
  fun a ha b hb ↦ h a (hl ha) b (hl' hb)

theorem Determines.of_append {α : Type u} {text : α → Text} {l l' m m' : List α}
    (h : Determines text (l ++ m) (l' ++ m')) : Determines text l l' ∧ Determines text m m' :=
  ⟨h.mono (subset_append_left _ _) (subset_append_left _ _),
    h.mono (subset_append_right _ _) (subset_append_right _ _)⟩

theorem subset_flatMap {α : Type u} {β : Type u} (f : α → List β) {l : List α} {a : α}
    (h : a ∈ l) : f a ⊆ l.flatMap f := fun _ hx ↦ mem_flatMap.mpr ⟨a, h, hx⟩

/-! ### The numbers of an input -/

section

variable {F : Type u}

def barNumbers (b : OHLCV F) : List F := [b.open, b.high, b.low, b.close, b.volume]

def StrategySignal.numbers (s : StrategySignal F) : List F :=
  [s.quantity, s.stopLoss, s.takeProfit, s.trailingStop, s.riskAmount]

def TradeConfig.numbers (t : TradeConfig F) : List F :=
  [t.fixedLot, t.riskPercent, t.riskAmount, t.defaultQuantity, t.commissionPct, t.commissionPerLot,
    t.spreadPct, t.slippagePct, t.stopLoss, t.takeProfit, t.atrSlMultiplier, t.atrTpMultiplier,
    t.trailingStop, t.atrTrailingMultiplier, t.trailingActivationPct, t.breakEvenActivationPct,
    t.partialClosePct, t.partialCloseTargetPct]

def RiskConfig.numbers (r : RiskConfig F) : List F := [r.initialEquity, r.dailyLossLimitPct]

def inputNumbers (bars : List (OHLCV F)) (signals : List (StrategySignal F))
    (config : StrategyConfig F) : List F :=
  bars.flatMap barNumbers ++ signals.flatMap StrategySignal.numbers ++ config.trade.numbers ++
    config.risk.numbers

end

/-! ## The texts of an input -/

section

variable {F : Type u} [Zero F] [LT F] [DecidableLT F] [CFormat F] [LawfulCFormat F]

theorem goodKeys_bar : GoodKeys (["t", "o", "h", "l", "c", "v"].map String.toList) :=
  ⟨by decide, by decide⟩

theorem goodKeys :
    GoodKeys (["bar_index", "action", "side", "quantity", "stop_loss", "take_profit",
      "trailing_stop", "has_stop_loss", "has_take_profit", "has_trailing_stop",
      "risk_amount"].map String.toList) ∧
    GoodKeys (["sizing", "fixed_lot", "risk_percent", "risk_amount", "default_quantity",
      "commission_pct", "commission_per_lot", "spread_pct", "slippage_pct", "stop_type",
      "stop_loss", "take_profit", "atr_period", "atr_sl_multiplier", "atr_tp_multiplier",
      "trailing_stop", "atr_trailing_multiplier", "trailing_activation_pct",
      "break_even_activation_pct", "partial_close_pct", "partial_close_target_pct",
      "max_bars_in_trade", "allow_long", "allow_short"].map String.toList) ∧
    GoodKeys (["enabled", "utc_start_hour", "utc_end_hour", "allow_saturday",
      "allow_sunday"].map String.toList) ∧
    GoodKeys (["initial_equity", "daily_loss_limit_pct", "max_open_positions",
      "max_trades_per_day", "close_on_session_end", "session"].map String.toList) := by
  decide +kernel

theorem goodKeys_config : GoodKeys (["trade", "risk"].map String.toList) :=
  ⟨by decide, by decide⟩

theorem goodKeys_input : GoodKeys (["bars", "config", "signals"].map String.toList) :=
  ⟨by decide, by decide⟩

theorem barText_inj {b b' : OHLCV F} (h : barText b = barText b') :
    iso8601 b.timestamp = iso8601 b'.timestamp ∧
      (barNumbers b).map canonicalDouble = (barNumbers b').map canonicalDouble := by
  have hkvs := canonicalObject_inj goodKeys_bar h rfl rfl (by simp) (by simp)
  simp only [List.cons.injEq, Prod.mk.injEq, true_and, and_true] at hkvs
  obtain ⟨htime, hnum⟩ := hkvs
  exact ⟨(verbatim_iso8601 _).canonicalStr_inj (verbatim_iso8601 _) htime, by
    simp only [barNumbers, map_cons, map_nil, hnum]⟩

theorem bars_determined {bars bars' : List (OHLCV F)}
    (ht : Determines iso8601 (bars.map OHLCV.timestamp) (bars'.map OHLCV.timestamp))
    (hn : Determines canonicalDouble (bars.flatMap barNumbers) (bars'.flatMap barNumbers)) :
    Determines barText bars bars' := by
  intro b hb b' hb' h
  obtain ⟨htime, hnum⟩ := barText_inj h
  have htime := ht _ (mem_map_of_mem hb) _ (mem_map_of_mem hb') htime
  have hnum := (hn.mono (subset_flatMap _ hb) (subset_flatMap _ hb')).eq hnum
  cases b
  cases b'
  simp only [barNumbers, List.cons.injEq, and_true] at hnum
  simp only [OHLCV.mk.injEq]
  exact ⟨htime, hnum⟩

theorem signals_determined {signals signals' : List (StrategySignal F)}
    (hn : Determines canonicalDouble (signals.flatMap StrategySignal.numbers)
      (signals'.flatMap StrategySignal.numbers)) :
    Determines signalText signals signals' := by
  intro s hs s' hs' h
  have hkvs := canonicalObject_inj goodKeys.1 h rfl rfl (by simp) (by simp)
  simp only [List.cons.injEq, Prod.mk.injEq, true_and, and_true] at hkvs
  obtain ⟨hbar, haction, hside, hqty, hsl, htp, hts, hhsl, hhtp, hhts, hrisk⟩ := hkvs
  have hnum := (hn.mono (subset_flatMap _ hs) (subset_flatMap _ hs')).eq
    (by simp only [StrategySignal.numbers, map_cons, map_nil, hqty, hsl, htp, hts, hrisk])
  cases s
  cases s'
  simp only [StrategySignal.numbers, List.cons.injEq, and_true] at hnum
  simp only [StrategySignal.mk.injEq]
  exact ⟨canonicalInt_injective hbar, actionName_inj haction, sideName_inj hside, hnum.1, hnum.2.1,
    hnum.2.2.1, hnum.2.2.2.1, canonicalBool_injective hhsl, canonicalBool_injective hhtp,
    canonicalBool_injective hhts, hnum.2.2.2.2⟩

theorem trade_determined {t t' : TradeConfig F}
    (hn : Determines canonicalDouble t.numbers t'.numbers) (h : tradeText t = tradeText t') :
    t = t' := by
  have hkvs := canonicalObject_inj goodKeys.2.1 h rfl rfl (by simp) (by simp)
  simp only [List.cons.injEq, Prod.mk.injEq, true_and, and_true] at hkvs
  obtain ⟨hsizing, hlot, hrp, hra, hdq, hcp, hcl, hspread, hslip, hstop, hsl, htp, hperiod, hasl,
    hatp, hts, hats, hact, hbe, hpc, hpt, hmax, hlong, hshort⟩ := hkvs
  have hnum := hn.eq (by simp only [TradeConfig.numbers, map_cons, map_nil, hlot, hrp,
    hra, hdq, hcp, hcl, hspread, hslip, hsl, htp, hasl, hatp, hts, hats, hact, hbe, hpc, hpt])
  cases t
  cases t'
  simp only [TradeConfig.numbers, List.cons.injEq, and_true] at hnum
  simp only [TradeConfig.mk.injEq]
  obtain ⟨hlot, hrp, hra, hdq, hcp, hcl, hspread, hslip, hsl, htp, hasl, hatp, hts, hats, hact, hbe,
    hpc, hpt⟩ := hnum
  exact ⟨sizingName_inj hsizing, hlot, hrp, hra, hdq, hcp, hcl, hspread, hslip, stopName_inj hstop,
    hsl, htp, canonicalInt_injective hperiod, hasl, hatp, hts, hats, hact, hbe, hpc, hpt,
    canonicalInt_injective hmax, canonicalBool_injective hlong, canonicalBool_injective hshort⟩

theorem session_determined {s s' : SessionFilter} (h : sessionText s = sessionText s') :
    s = s' := by
  have hkvs := canonicalObject_inj goodKeys.2.2.1 h rfl rfl (by simp) (by simp)
  simp only [List.cons.injEq, Prod.mk.injEq, true_and, and_true] at hkvs
  obtain ⟨henabled, hstart, hend, hsat, hsun⟩ := hkvs
  cases s
  cases s'
  simp only [SessionFilter.mk.injEq]
  exact ⟨canonicalBool_injective henabled, canonicalInt_injective hstart,
    canonicalInt_injective hend, canonicalBool_injective hsat, canonicalBool_injective hsun⟩

@[simp] theorem token_sessionText (s : SessionFilter) : JsonToken (sessionText s) :=
  token_canonicalObject goodKeys.2.2.1 (by simp)

theorem risk_determined {r r' : RiskConfig F}
    (hn : Determines canonicalDouble r.numbers r'.numbers) (h : riskText r = riskText r') :
    r = r' := by
  have hkvs := canonicalObject_inj goodKeys.2.2.2 h rfl rfl (by simp) (by simp)
  simp only [List.cons.injEq, Prod.mk.injEq, true_and, and_true] at hkvs
  obtain ⟨hequity, hlimit, hopen, hday, hclose, hsession⟩ := hkvs
  have hnum := hn.eq (by
    simp only [RiskConfig.numbers, map_cons, map_nil, hequity, hlimit])
  have hopen := canonicalInt_injective hopen
  have hday := canonicalInt_injective hday
  cases r
  cases r'
  simp only [RiskConfig.numbers, List.cons.injEq, and_true] at hnum
  simp only [RiskConfig.mk.injEq]
  exact ⟨hnum.1, hnum.2, Int.ofNat.inj hopen, Int.ofNat.inj hday, session_determined hsession,
    canonicalBool_injective hclose⟩

@[simp] theorem token_barText (b : OHLCV F) : JsonToken (barText b) :=
  token_canonicalObject goodKeys_bar (by simp)

@[simp] theorem token_signalText (s : StrategySignal F) : JsonToken (signalText s) :=
  token_canonicalObject goodKeys.1 (by simp)

@[simp] theorem token_barsJson (bars : List (OHLCV F)) : JsonToken (barsJson bars) :=
  token_canonicalArray (by simp)

@[simp] theorem token_sigJson (signals : List (StrategySignal F)) : JsonToken (sigJson signals) :=
  token_canonicalArray (by simp)

@[simp] theorem token_tradeText (t : TradeConfig F) : JsonToken (tradeText t) :=
  token_canonicalObject goodKeys.2.1 (by simp)

@[simp] theorem token_riskText (r : RiskConfig F) : JsonToken (riskText r) :=
  token_canonicalObject goodKeys.2.2.2 (by simp)

@[simp] theorem token_cfgJson (c : StrategyConfig F) : JsonToken (cfgJson c) :=
  token_canonicalObject goodKeys_config (by simp)

theorem config_determined {c c' : StrategyConfig F}
    (ht : Determines canonicalDouble c.trade.numbers c'.trade.numbers)
    (hr : Determines canonicalDouble c.risk.numbers c'.risk.numbers) (h : cfgJson c = cfgJson c') :
    c = c' := by
  have hkvs := canonicalObject_inj goodKeys_config h rfl rfl (by simp) (by simp)
  simp only [List.cons.injEq, Prod.mk.injEq, true_and, and_true] at hkvs
  have htrade := trade_determined ht hkvs.1
  have hrisk := risk_determined hr hkvs.2
  cases c
  cases c'
  simp only [StrategyConfig.mk.injEq]
  exact ⟨htrade, hrisk⟩

/-- **The preimage** determines the texts of its parts. -/
theorem inputPreimage_inj {bars bars' : List (OHLCV F)} {signals signals' : List (StrategySignal F)}
    {config config' : StrategyConfig F}
    (h : inputPreimage bars signals config = inputPreimage bars' signals' config') :
    bars.map barText = bars'.map barText ∧ cfgJson config = cfgJson config' ∧
      (stableSortBy StrategySignal.barIndex signals).map signalText =
        (stableSortBy StrategySignal.barIndex signals').map signalText := by
  have hkvs := canonicalObject_inj goodKeys_input h rfl rfl (by simp) (by simp)
  simp only [List.cons.injEq, Prod.mk.injEq, true_and, and_true] at hkvs
  obtain ⟨hbars, hconfig, hsignals⟩ := hkvs
  have hbar (bs : List (OHLCV F)) : ∀ v ∈ bs.map barText, JsonToken v ∧ v ≠ [] := by
    intro v hv
    obtain ⟨b, -, rfl⟩ := mem_map.mp hv
    exact ⟨token_barText b, cons_ne_nil _ _⟩
  have hsig (ss : List (StrategySignal F)) : ∀ v ∈ ss.map signalText, JsonToken v ∧ v ≠ [] := by
    intro v hv
    obtain ⟨s, -, rfl⟩ := mem_map.mp hv
    exact ⟨token_signalText s, cons_ne_nil _ _⟩
  exact ⟨canonicalArray_inj (hbar bars) (hbar bars') hbars, hconfig,
    canonicalArray_inj (hsig _) (hsig _) hsignals⟩

end

/-! ## Equal preimages, equal runs -/

section

variable {F : Type u} [Zero F] [One F] [NatCast F] [Add F] [Sub F] [Mul F] [Div F] [Neg F]
  [LT F] [LE F] [DecidableLT F] [DecidableLE F]

theorem reordered_of_stableSortBy_eq {signals signals' : List (StrategySignal F)}
    (h : stableSortBy StrategySignal.barIndex signals =
      stableSortBy StrategySignal.barIndex signals') : Reordered signals signals' where
  perm := (stableSortBy_perm _ signals).symm.trans (h ▸ stableSortBy_perm _ signals')
  sameBar := by
    intro k
    rw [← atKey_stableSortBy _ k signals, h, atKey_stableSortBy]

/-- **The input hash is sound** up to its precision: where the ten decimals of the
numbers and the seconds of the time stamps tell them apart, equal preimages come
from runs with the same outcome. -/
theorem run_eq_of_inputPreimage_eq [CMath F] [IntCast F] [BEq F] [CFormat F] [LawfulCFormat F]
    {bars bars' : List (OHLCV F)} {signals signals' : List (StrategySignal F)}
    {config config' : StrategyConfig F}
    (hn : Determines canonicalDouble (inputNumbers bars signals config)
      (inputNumbers bars' signals' config'))
    (ht : Determines iso8601 (bars.map OHLCV.timestamp) (bars'.map OHLCV.timestamp))
    (h : inputPreimage bars signals config = inputPreimage bars' signals' config') :
    run config bars signals = run config' bars' signals' := by
  obtain ⟨hbars, hconfig, hsignals⟩ := inputPreimage_inj h
  -- The numbers of each part of the input are among those of the whole.
  obtain ⟨hn, hnr⟩ := hn.of_append
  obtain ⟨hn, hnt⟩ := hn.of_append
  obtain ⟨hnb, hns⟩ := hn.of_append
  have hmem (l : List (StrategySignal F)) : (stableSortBy StrategySignal.barIndex l).flatMap
      StrategySignal.numbers ⊆ l.flatMap StrategySignal.numbers := by
    intro x hx
    obtain ⟨s, hs, hxs⟩ := mem_flatMap.mp hx
    exact mem_flatMap.mpr ⟨s, (mem_stableSortBy _).mp hs, hxs⟩
  have hb := (bars_determined ht hnb).eq hbars
  have hs := (signals_determined (hns.mono (hmem signals) (hmem signals'))).eq hsignals
  rw [hb, config_determined hnt hnr hconfig]
  exact (reordered_of_stableSortBy_eq hs).run_eq config' bars'

end

/-! ## At and beyond the precision -/

/-- A long position over the last two of three bars, with lot `lot` and the bars
`tick` nanoseconds apart. -/
def precisionInput (lot : ℚ) (tick : Int) :
    StrategyConfig ℚ × List (OHLCV ℚ) × List (StrategySignal ℚ) :=
  ({ StrategyConfig.defaults with
      trade := { TradeConfig.defaults with sizing := .fixedLot, fixedLot := lot } },
    [⟨0, 100, 100, 100, 100, 1⟩, ⟨tick, 100, 101, 100, 101, 1⟩],
    [{ StrategySignal.defaults with barIndex := 0, action := .open }])

/-- Two streams in different order have one preimage and one outcome. -/
theorem run_eq_of_inputPreimage_eq_sample :
    let cfg := (precisionInput 1 60000000000).1
    let bars := (precisionInput 1 60000000000).2.1
    let buy : StrategySignal ℚ := { StrategySignal.defaults with barIndex := 0, action := .open }
    let sell : StrategySignal ℚ := { StrategySignal.defaults with barIndex := 1, action := .close }
    run cfg bars [buy, sell] = run cfg bars [sell, buy] := by
  intro cfg bars buy sell
  have hord : Reordered [buy, sell] [sell, buy] := by
    refine reordered_of_stableSortBy_eq ?_
    decide +kernel
  refine run_eq_of_inputPreimage_eq ?_ ?_ ?_
  · unfold Determines
    decide +kernel
  · unfold Determines
    decide +kernel
  · rw [inputPreimage, hord.sigJson_eq, inputPreimage]

/-- Beyond ten decimals, and within a second, inputs with one preimage run
differently. -/
theorem inputPreimage_rounds :
    (let (cfg, bars, signals) := precisionInput 1 60000000000
     let (cfg', bars', signals') := precisionInput (1 + 1 / 2 ^ 40) 60000000000
     inputPreimage bars signals cfg = inputPreimage bars' signals' cfg' ∧
       ∃ r r', run cfg bars signals = .ok r ∧ run cfg' bars' signals' = .ok r' ∧
         r.trades ≠ r'.trades) ∧
    (let (cfg, bars, signals) := precisionInput 1 1
     let (cfg', bars', signals') := precisionInput 1 2
     inputPreimage bars signals cfg = inputPreimage bars' signals' cfg' ∧
       ∃ r r', run cfg bars signals = .ok r ∧ run cfg' bars' signals' = .ok r' ∧
         r.trades ≠ r'.trades) := by
  have hrun (i : StrategyConfig ℚ × List (OHLCV ℚ) × List (StrategySignal ℚ))
      (h : (inputError i.2.1 i.2.2).isNone = true) :
      run i.1 i.2.1 i.2.2 = .ok (simulate i.1 i.2.1 i.2.2) :=
    run_eq_ok.mpr ⟨inputError_eq_none.mp (Option.isNone_iff_eq_none.mp h), rfl⟩
  have hlot : canonicalDouble ((1 : ℚ) + 1 / 2 ^ 40) = canonicalDouble (1 : ℚ) := by decide +kernel
  have htick : iso8601 2 = iso8601 1 := by decide +kernel
  refine ⟨⟨?_, _, _, hrun (precisionInput 1 60000000000) (by decide +kernel),
    hrun (precisionInput (1 + 1 / 2 ^ 40) 60000000000) (by decide +kernel), fun h ↦ ?_⟩,
    ⟨?_, _, _, hrun (precisionInput 1 1) (by decide +kernel),
    hrun (precisionInput 1 2) (by decide +kernel), fun h ↦ ?_⟩⟩
  · simp only [inputPreimage, barsJson, cfgJson, tradeText, riskText, hlot]
  · exact absurd (congrArg (List.map TradeResult.quantity) h) (by decide +kernel)
  · simp only [inputPreimage, barsJson, barText, map_cons, htick]
  · exact absurd (congrArg (List.map TradeResult.entryTime) h) (by decide +kernel)

end Qros.Quant.Strategy
