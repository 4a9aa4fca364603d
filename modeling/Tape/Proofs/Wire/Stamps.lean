import Tape.Proofs.Wire.Naming

/-!
# Stamps of events

A trade or a book is stamped with the time at which its frame was received.
-/

namespace Tape

/-- When a trade or a book was received. -/
def Event.stamp? : Event → Option Nat
  | trade t => some t.stamp
  | book b => some b.stamp
  | heartbeat | unknown | rejected _ => none

namespace Wire

variable {now stamp : Nat} {v : Json} {event : Event}

theorem Bybit.stamp_of_decode (decoded : Bybit.decode now v = .ok event)
    (stamped : event.stamp? = some stamp) : stamp = now := by
  cases Bybit.means_of_decode decoded with
  | heartbeat => cases stamped
  | unknown => cases stamped
  | trade kind data read =>
      cases stamped
      rfl
  | book data read =>
      cases stamped
      rfl

theorem Binance.stamp_of_decode (decoded : Binance.decode now v = .ok event)
    (stamped : event.stamp? = some stamp) : stamp = now := by
  cases Binance.means_of_decode decoded with
  | heartbeat => cases stamped
  | unknown => cases stamped
  | trade kind read =>
      cases stamped
      rfl
  | book read =>
      cases stamped
      rfl

theorem Hyperliquid.stamp_of_decode (decoded : Hyperliquid.decode now v = .ok event)
    (stamped : event.stamp? = some stamp) : stamp = now := by
  cases Hyperliquid.means_of_decode decoded with
  | heartbeat => cases stamped
  | unknown => cases stamped
  | trade kind data read =>
      cases stamped
      rfl
  | book data read sides =>
      cases stamped
      rfl

theorem Dydx.stamp_of_decode {store after : BookStore}
    (decoded : Dydx.decode now store v = (.ok event, after))
    (stamped : event.stamp? = some stamp) : stamp = now := by
  cases Dydx.means_of_decode decoded with
  | heartbeat => cases stamped
  | unknown => cases stamped
  | trade kind named held trades read =>
      cases stamped
      rfl
  | batch named held read applied =>
      rw [Batch.applyTo_eq] at applied
      cases applied
      split at stamped
      · cases stamped
      · cases stamped
        rfl

namespace Uniswap

theorem stamp?_decodeAnswer (v : Json) : (decodeAnswer v).stamp? = none := by
  rw [decodeAnswer]
  split <;> rfl

theorem stamp_of_decodeLog {log : Json} (decoded : decodeLog now log = .ok (some event))
    (stamped : event.stamp? = some stamp) : stamp = now := by
  unfold decodeLog at decoded
  split at decoded
  · cases decoded
    cases stamped
  · cases decoded
    cases stamped
  · split at decoded
    · obtain ⟨swap, _, same⟩ := bind_eq_ok.1 decoded
      cases same
      cases stamped
      rfl
    · split at decoded
      · cases decoded
        cases stamped
        rfl
      · cases decoded
  · cases decoded

theorem stamp_of_decode (decoded : decode now v = .ok event)
    (stamped : event.stamp? = some stamp) : stamp = now := by
  unfold decode at decoded
  split at decoded
  · split at decoded
    · cases decoded
      cases stamped
    · obtain ⟨found, read, decoded⟩ := bind_eq_ok.1 decoded
      cases found with
      | some event' =>
          cases decoded
          exact stamp_of_decodeLog read stamped
      | none =>
          cases decoded
          rw [stamp?_decodeAnswer] at stamped
          cases stamped
  · cases decoded
    rw [stamp?_decodeAnswer] at stamped
    cases stamped

end Uniswap

end Wire

/-- An event bears the time at which its frame was received. -/
theorem Venue.stamp_of_decode {venue : Venue} {now stamp : Nat} {store : BookStore} {frame : String}
    (stamped : (venue.decode now store frame).1.stamp? = some stamp) : stamp = now := by
  rw [decode] at stamped
  split at stamped
  · cases stamped
  next v _ =>
    rcases answer : venue.decodeJson now store v with ⟨answered, after⟩
    rw [answer] at stamped
    cases answered with
    | error error => cases stamped
    | ok event =>
        cases venue with
        | dydx => exact Wire.Dydx.stamp_of_decode answer stamped
        | bybit =>
            obtain ⟨decoded, _⟩ := Prod.mk.inj answer
            exact Wire.Bybit.stamp_of_decode decoded stamped
        | binance =>
            obtain ⟨decoded, _⟩ := Prod.mk.inj answer
            exact Wire.Binance.stamp_of_decode decoded stamped
        | hyperliquid =>
            obtain ⟨decoded, _⟩ := Prod.mk.inj answer
            exact Wire.Hyperliquid.stamp_of_decode decoded stamped
        | uniswap =>
            obtain ⟨decoded, _⟩ := Prod.mk.inj answer
            exact Wire.Uniswap.stamp_of_decode decoded stamped

end Tape
