import Tape.Link.Basic

/-!
# The count of attempts in 32 bits

A link counts its attempts in 32 bits. The count is raised before it is compared with the attempts
of the policy, so it has to go one above them for a recovery to fail.
-/

namespace Tape.Link

/-- Dials again until a socket is opened or the count is above the attempts of the policy. The count
is raised first, and there is no result when that takes more than 32 bits. -/
def rounds32? (l : Link) (dials : Script Dial) : Option Recovery :=
  if l.attempt + 1 < Word.bound32 then
    let counted := { l with attempt := l.attempt + 1 }
    if l.policy.attempts < counted.attempt then
      some ⟨some counted.exhausted, [], { counted with state := .failed }, dials⟩
    else
      let moves := [.wait (l.policy.wait counted.attempt), .dial dials.next.1]
      match counted.connect dials.next.1 with
      | (none, l) => some ⟨none, moves, l, dials.next.2⟩
      | (some _, _) =>
          (rounds32? { counted with state := .reconnecting } dials.next.2).map fun more =>
            { more with moves := moves ++ more.moves }
  else none
termination_by Word.bound32 - l.attempt
decreasing_by omega

/-- The link as it is dialled again. -/
def bare (l : Link) : Link := { l with state := .reconnecting, hasSocket := false }

/-- Recovers with a count of 32 bits. -/
def recover32? (l : Link) (loss : Loss) (dials : Script Dial) : Option Recovery :=
  match loss with
  | .shutdown => some (l.recover .shutdown dials)
  | _ => l.bare.rounds32? dials

end Tape.Link
