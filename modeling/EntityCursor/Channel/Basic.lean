import EntityCursor.Failure
import EntityCursor.Query.Basic

/-!
Channels to a remote query engine. A query is opened, which yields a handle; its rows are then
fetched one at a time, and the handle is closed. Every step may fail. An open query has a bound on
the rows it can still deliver, which goes down with every row, so that fetching comes to an end.
-/

namespace EntityCursor

structure Handle where
  number : Nat
deriving DecidableEq, Repr

structure Channel (State : Type) where
  openQuery : Query → State → Except ChannelError Handle × State
  next : Handle → State → Except ChannelError (Option Row) × State
  close : Handle → State → Except ChannelError Unit × State
  /-- A bound on the rows that are still to come. -/
  pending : Handle → State → Nat
  pending_next : ∀ {handle : Handle} {state after : State} {row : Row},
    next handle state = (.ok (some row), after) → pending handle after < pending handle state

namespace Channel

variable {State : Type}

def refusing (reason : String) (channel : Channel State) : Channel State :=
  { channel with openQuery := fun _ state => (.error (.opening reason), state) }

/-- A channel that closes queries and then reports a failure. -/
def failingToClose (reason : String) (channel : Channel State) : Channel State :=
  { channel with
    close := fun handle state =>
      match channel.close handle state with
      | (.ok (), state) => (.error (.closing reason), state)
      | (.error failure, state) => (.error failure, state) }

end Channel

end EntityCursor
