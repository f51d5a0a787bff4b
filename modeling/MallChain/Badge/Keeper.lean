import MallChain.Lib.Snapshot
import MallChain.Mlcoin.Types

namespace Badge

open Sdk

structure Params where
  badgeIssuer : String := ""
  deriving DecidableEq, Repr

structure UserBadge where
  index      : String := ""
  address    : String
  hasBadge   : Bool
  issuedDate : UInt64
  badgeType  : String
  deriving DecidableEq, Repr

structure State where
  params    : Option Params := none
  userBadge : KVStore String UserBadge := .empty

structure GenesisState where
  params       : Params := {}
  userBadgeMap : List UserBadge := []

structure MsgIssueBadge where
  creator   : String
  recipient : String
  badgeType : String

def errBadgeAlreadyIssued : String := "badge already issued to user"
def errUnauthorizedIssuer : String := "creator is not the configured badge issuer"

def hasUserBadge (s : State) (address : String) : Bool :=
  (s.userBadge.get address).isSome

def issueBadge (addressCodec : String → Option AccAddress) (blockTime : ℤ) (msg : MsgIssueBadge)
    (s : State) : Result State := do
  failIf (addressCodec msg.creator = none) (.error "invalid creator address")
  failIf (addressCodec msg.recipient = none) (.error "invalid recipient address")
  let params ← orFail s.params (Mlcoin.wrap "collections: not found" "failed to load params")
  failIf (params.badgeIssuer = "" ∨ msg.creator ≠ params.badgeIssuer)
    (Mlcoin.wrap errUnauthorizedIssuer
      s!"creator {msg.creator} is not the configured badge issuer")
  failIf ((s.userBadge.get msg.recipient).any (·.hasBadge) = true)
    (Mlcoin.wrap errBadgeAlreadyIssued "user already has a badge")
  let badge : UserBadge := {
    address    := msg.recipient
    hasBadge   := true
    issuedDate := .ofInt blockTime
    badgeType  := msg.badgeType
  }
  return { s with userBadge := s.userBadge.set msg.recipient badge }

def initGenesis (genState : GenesisState) (s : State) : State :=
  { s with
    userBadge := genState.userBadgeMap.foldl (fun m elem => m.set elem.index elem) s.userBadge
    params    := some genState.params
  }

def exportGenesis (s : State) : Result GenesisState := do
  let params ← orFail s.params (.error "collections: not found")
  return { params := params, userBadgeMap := s.userBadge.values }

-- The type of the badge that a user holds.
def State.holds (s : State) (user : String) : Option String :=
  (s.userBadge.get user).bind fun badge => if badge.hasBadge then some badge.badgeType else none

theorem of_issueBadge {addressCodec : String → Option AccAddress} {blockTime : ℤ} {msg : MsgIssueBadge}
    {s s' : State} (h : issueBadge addressCodec blockTime msg s = .ok s') :
    s'.params = s.params ∧ ∃ badge : UserBadge, badge.index = "" ∧ badge.hasBadge = true ∧
      badge.badgeType = msg.badgeType ∧ s'.userBadge = s.userBadge.set msg.recipient badge := by
  simp only [issueBadge, Result.bind_eq_ok, Result.pure_eq_ok] at h
  obtain ⟨_, _, _, _, _, _, _, _, _, _, rfl⟩ := h
  exact ⟨rfl, _, rfl, rfl, rfl, rfl⟩

end Badge
