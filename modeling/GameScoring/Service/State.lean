import GameScoring.Service.Counter

/-! # The running service

The state of a running service is its store, the number of ids that were drawn and everything that
happened. Time passes with submissions: each one that could be scored takes a second, whether it is
recorded or not.
-/
namespace GameScoring.Service
open Scoring Store

structure State where
  store : Store
  drawn : Nat
  happenings : List Happening

namespace State

def initial : State := ⟨.empty, 0, []⟩

def isScored : Happening → Bool
  | .scoring (.passed _ true) => true
  | _ => false

def now (state : State) : Int := state.happenings.countP isScored + 1

def note (state : State) (happenings : List Happening) : State :=
  { state with happenings := state.happenings ++ happenings }

def conditions (state : State) (failure : Option CommitFailure) : Conditions :=
  ⟨state.now, state.drawn, failure⟩

def perform (state : State) (failure : Option CommitFailure) (operation : Operation) :
    State × Answer Result :=
  let reply := operation.perform (state.conditions failure) state.store
  (⟨reply.store, state.drawn + reply.drawn, state.happenings ++ reply.events.map .scoring⟩, reply.outcome)

/-- Takes over a changed store and the number of ids that the change drew. -/
def withStore (state : State) (store : Store) (drawn : Nat) : State :=
  { state with store, drawn := state.drawn + drawn }

end State

end GameScoring.Service
