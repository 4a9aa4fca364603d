import Tape.Proofs.Text.Replacement
import Tape.Proofs.Wire.Addresses

/-!
# Quotes rewritten to USD

One venue has all its markets in USD, so a symbol in USDT is taken for the market in USD. The
replacement goes by the first place where that quote is written. This is the quote of the symbol
when the base does not hold the same text; when it does, the base is rewritten and the quote kept.
-/

namespace Tape.Wire.Dydx

/-! ## What is rewritten -/

/-- The quote that is rewritten. -/
def otherQuote : List Char := "USDT".toList

/-- The first place of the other quote in a text, rewritten. -/
def inUsd (s : String) : String :=
  String.ofList (Text.replaceFirst otherQuote "USD".toList s.toList)

/-- The text of the other quote stands in a base. -/
def holdsOtherQuote (base : String) : Bool := Text.holds otherQuote base.toList

theorem marketName_eq (symbol : String) :
    marketName symbol = Symbol.dashBeforeLast 3 6 (inUsd (Text.upper symbol)) := rfl

theorem toList_inUsd (s : String) :
    (inUsd s).toList = Text.replaceFirst otherQuote "USD".toList s.toList :=
  String.toList_ofList

theorem inUsd_of_holdsOtherQuote {base : String} (held : holdsOtherQuote base = true)
    (rest : String) : inUsd (base ++ rest) = inUsd base ++ rest := by
  rw [inUsd, String.toList_append, Text.replaceFirst_append_of_holds rest.toList held,
    String.ofList_append, String.ofList_toList]
  rfl

section Free

variable {base : String} (free : holdsOtherQuote base = false)
include free

theorem inUsd_dash (rest : String) :
    inUsd (base ++ ("-" ++ rest)) = base ++ ("-" ++ inUsd rest) := by
  have dashed (s : String) : ("-" ++ s).toList = '-' :: s.toList := by
    rw [String.toList_append]
    rfl
  -- The dash keeps an occurrence from going on into the quote, so the base would hold it.
  have apart : ¬ Text.BeginsIn otherQuote base.toList ('-' :: rest.toList) := by
    intro begun
    exact Bool.noConfusion (free.symm.trans (begun.holds_of_mark (by decide)))
  have here : ¬ otherQuote <+: '-' :: rest.toList := by
    intro found
    exact absurd (List.cons_prefix_cons.1 found).1 (by decide)
  apply String.toList_injective
  rw [toList_inUsd, String.toList_append, dashed, Text.replaceFirst_append_of_not_beginsIn apart,
    Text.replaceFirst_cons here, String.toList_append, dashed, toList_inUsd]

theorem inUsd_quote : inUsd (base ++ "USDT") = base ++ "USD" := by
  have apart : ¬ Text.BeginsIn otherQuote base.toList otherQuote := by
    intro begun
    exact Bool.noConfusion (free.symm.trans (begun.holds_of_nodup (by decide)))
  have whole : Text.replaceFirst otherQuote "USD".toList otherQuote = "USD".toList := by decide
  apply String.toList_injective
  rw [toList_inUsd, String.toList_append, String.toList_append]
  exact (Text.replaceFirst_append_of_not_beginsIn apart).trans (congrArg _ whole)

end Free

/-- A base that is rewritten loses a character. -/
theorem length_inUsd {base : String} (held : holdsOtherQuote base = true) :
    (inUsd base).length + 1 = base.length := by
  have size : (Text.replaceFirst otherQuote "USD".toList base.toList).length + otherQuote.length =
      base.toList.length + "USD".toList.length := Text.length_replaceFirst held
  rw [← toList_inUsd, String.length_toList, String.length_toList] at size
  have lengths : otherQuote.length = "USD".toList.length + 1 := rfl
  omega

theorem isPlain_inUsd {base : String} (plain : Symbol.isPlain base = true) :
    Symbol.isPlain (inUsd base) = true := by
  have plainNew : Symbol.isPlain "USD" = true := by decide
  refine List.all_eq_true.2 fun c found => ?_
  rw [toList_inUsd] at found
  exact (Text.mem_of_mem_replaceFirst found).elim (Symbol.isPlainChar_of_mem plain)
    (Symbol.isPlainChar_of_mem plainNew)

/-! ## Names of markets -/

theorem upper_dash {base quote : String} (plainBase : Symbol.isPlain base = true)
    (plainQuote : Symbol.isPlain quote = true) :
    Text.upper (base ++ ("-" ++ quote)) = base ++ ("-" ++ quote) := by
  have dash : Text.upper "-" = "-" := rfl
  rw [Text.upper_append, Text.upper_append, Symbol.upper_of_isPlain plainBase, dash,
    Symbol.upper_of_isPlain plainQuote]

section Named

variable {base : String} (plain : Symbol.isPlain base = true)
include plain

/-- A symbol with a dash is rewritten and gets no other dash. -/
theorem marketName_dash {quote : String} (plainQuote : Symbol.isPlain quote = true)
    {base' quote' : String} (plain' : Symbol.isPlain base' = true)
    (plainQuote' : Symbol.isPlain quote' = true)
    (rewritten : inUsd (base ++ ("-" ++ quote)) = base' ++ ("-" ++ quote')) :
    marketName (base ++ "-" ++ quote) = base' ++ "-" ++ quote' := by
  have dashed : '-' ∈ (base' ++ ("-" ++ quote')).toList := by simp
  rw [marketName_eq, String.append_assoc, upper_dash plain plainQuote, rewritten,
    Symbol.dashBeforeLast_of_dash dashed, upper_dash plain' plainQuote', String.append_assoc]

/-- The dash of a symbol that has none goes before the last three characters of what is made of
it. -/
theorem marketName_append {quote : String} (plainQuote : Symbol.isPlain quote = true)
    {base' quote' : String} (plain' : Symbol.isPlain base' = true)
    (plainQuote' : Symbol.isPlain quote' = true) (last : quote'.length = 3)
    (long : 6 ≤ base'.length + quote'.length)
    (rewritten : inUsd (base ++ quote) = base' ++ quote') :
    marketName (base ++ quote) = base' ++ "-" ++ quote' := by
  have nonempty : base' ≠ "" := by
    rintro rfl
    rw [String.length_empty, last] at long
    omega
  have placed := Symbol.dashBeforeLast_append plain' plainQuote' nonempty long
  rw [marketName_eq, Symbol.upper_of_isPlain (Symbol.isPlain_append plain plainQuote), rewritten,
    ← placed, last]

theorem marketName_of_free (free : holdsOtherQuote base = false) :
    marketName (base ++ "-" ++ "USD") = base ++ "-" ++ "USD" ∧
      marketName (base ++ "-" ++ "USDT") = base ++ "-" ++ "USD" ∧
      (6 ≤ base.length + "USD".length → marketName (base ++ "USDT") = base ++ "-" ++ "USD") := by
  have usd : Symbol.isPlain "USD" = true := by decide
  have usdt : Symbol.isPlain "USDT" = true := by decide
  have same : inUsd "USD" = "USD" := by decide
  have other : inUsd "USDT" = "USD" := by decide
  refine ⟨?_, ?_, fun long => ?_⟩
  · exact marketName_dash plain usd plain usd ((inUsd_dash free "USD").trans (by rw [same]))
  · exact marketName_dash plain usdt plain usd ((inUsd_dash free "USDT").trans (by rw [other]))
  · exact marketName_append plain usdt plain usd rfl long (inUsd_quote free)

/-- The quote of a base that is rewritten is kept, and without a dash it loses a character to the
base. -/
theorem marketName_of_holdsOtherQuote (held : holdsOtherQuote base = true) :
    marketName (base ++ "-" ++ "USD") = inUsd base ++ "-" ++ "USD" ∧
      marketName (base ++ "-" ++ "USDT") = inUsd base ++ "-" ++ "USDT" ∧
      marketName (base ++ "USDT") = inUsd base ++ "U" ++ "-" ++ "SDT" := by
  have usd : Symbol.isPlain "USD" = true := by decide
  have usdt : Symbol.isPlain "USDT" = true := by decide
  have plain' := isPlain_inUsd plain
  have size : 4 ≤ base.length := by
    rw [← String.length_toList]
    exact (Text.holds_iff.1 held).length_le
  have shorter := length_inUsd held
  have long : 6 ≤ (inUsd base ++ "U").length + "SDT".length := by
    have one : "U".length = 1 := rfl
    have three : "SDT".length = 3 := rfl
    rw [String.length_append]
    omega
  have quote : inUsd (base ++ "USDT") = inUsd base ++ "U" ++ "SDT" := by
    rw [inUsd_of_holdsOtherQuote held, String.append_assoc]
    rfl
  refine ⟨?_, ?_, ?_⟩
  · exact marketName_dash plain usd plain' usd (inUsd_of_holdsOtherQuote held _)
  · exact marketName_dash plain usdt plain' usdt (inUsd_of_holdsOtherQuote held _)
  · exact marketName_append plain usdt (Symbol.isPlain_append plain' (by decide)) (by decide) rfl
      long quote

end Named

end Tape.Wire.Dydx

namespace Tape.Venue

open Wire

/-- Symbols in USD and in USDT ask for the market of their base in USD when the base does not hold
the text that is rewritten. When it does they ask for other markets: the base has lost a character,
and the quote is as it was written. -/
theorem dydx_asks_in_usd_unless_base_holds_quote {base : String}
    (plain : Symbol.isPlain base = true) :
    (Dydx.holdsOtherQuote base = false →
      dydx.AsksFor (base ++ "-" ++ "USD") (base ++ "-" ++ "USD") ∧
        dydx.AsksFor (base ++ "-" ++ "USDT") (base ++ "-" ++ "USD") ∧
        (6 ≤ base.length + "USD".length →
          dydx.AsksFor (base ++ "USDT") (base ++ "-" ++ "USD"))) ∧
      (Dydx.holdsOtherQuote base = true →
        dydx.AsksFor (base ++ "-" ++ "USD") (Dydx.inUsd base ++ "-" ++ "USD") ∧
          dydx.AsksFor (base ++ "-" ++ "USDT") (Dydx.inUsd base ++ "-" ++ "USDT") ∧
          dydx.AsksFor (base ++ "USDT") (Dydx.inUsd base ++ "U" ++ "-" ++ "SDT") ∧
          (Dydx.inUsd base).length + 1 = base.length) := by
  have asks {symbol market : String} (named : Dydx.marketName symbol = market) :
      dydx.AsksFor symbol market := (asksFor_iff Venue.noConfusion).2 named
  constructor
  · intro free
    obtain ⟨inUsd, inUsdt, undashed⟩ := Dydx.marketName_of_free plain free
    exact ⟨asks inUsd, asks inUsdt, fun long => asks (undashed long)⟩
  · intro held
    obtain ⟨inUsd, inUsdt, undashed⟩ := Dydx.marketName_of_holdsOtherQuote plain held
    exact ⟨asks inUsd, asks inUsdt, asks undashed, Dydx.length_inUsd held⟩

/-- A base without the quote and one with it. -/
theorem dydx_asks_in_usd_unless_base_holds_quote_of_btc :
    dydx.AsksFor ("BTC" ++ "USDT") ("BTC" ++ "-" ++ "USD") ∧
      dydx.AsksFor ("AUSDTB" ++ "-" ++ "USD") ("AUSDB" ++ "-" ++ "USD") := by
  have btc : Symbol.isPlain "BTC" = true := by decide
  have other : Symbol.isPlain "AUSDTB" = true := by decide
  have shorter : Dydx.inUsd "AUSDTB" = "AUSDB" := by decide
  have free := (dydx_asks_in_usd_unless_base_holds_quote btc).1 (by decide)
  have held := (dydx_asks_in_usd_unless_base_holds_quote other).2 (by decide)
  rw [shorter] at held
  exact ⟨free.2.2 (by decide), held.1⟩

/-- The market of the coin USDT in USD cannot be asked for: its own name asks for the market of
USD. -/
theorem dydx_usdt_asks_for_another :
    Symbol.isPlain "USDT" = true ∧ dydx.AsksFor ("USDT" ++ "-" ++ "USD") ("USD" ++ "-" ++ "USD") ∧
      ¬ dydx.AsksFor ("USDT" ++ "-" ++ "USD") ("USDT" ++ "-" ++ "USD") := by
  have named : dydx.marketName ("USDT" ++ "-" ++ "USD") = "USD" ++ "-" ++ "USD" := by decide
  have names : dydx ≠ uniswap := Venue.noConfusion
  refine ⟨by decide, (asksFor_iff names).2 named, fun asks => ?_⟩
  have other := named.symm.trans ((asksFor_iff names).1 asks)
  exact absurd other (by decide)

end Tape.Venue
