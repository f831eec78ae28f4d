import LogDispatch.Engine

/-! Channels of an engine: opening one, and working out their tables afresh after a reload. While that goes
    on, no channel joins those that reloads recalculate. -/

namespace LogDispatch.Engine

variable (e : Engine)

/-- A new channel, which keeps the handle it was opened with. -/
def register (module : String) (shownAs : Option String) : Option Move :=
  if !e.setup.modules then some { engine := e, next := [.leave, .finish (.failed .channelsDisabled)] }
  else e.live.map fun g =>
    let channel := e.channels.length
    { engine := { e with channels := e.channels ++ [Channel.ofModule g module shownAs] }
      next := [.enlist channel, .letGo g, .finish (.channel channel)] }

/-- Adds a channel to those that reloads recalculate. -/
def enlist (channel : ChannelId) : Option Move :=
  if e.channelsLocked then none
  else match e.channels[channel]? with
    | none => some { engine := e }
    | some c => some { engine := e.setChannel channel { c with isEnlisted := true } }

/-- The channels that a reload recalculates. -/
def enlisted : List ChannelId :=
  e.channels.zipIdx.filterMap fun (c, i) => if c.isEnlisted && c.isOpen then some i else none

/-- Recalculates every open channel, one after the other, while no other one is registered. -/
def recalcAll (g : Generation) : Option Move :=
  if e.channelsLocked then none
  else some {
    engine := { e with channelsLocked := true }
    next := e.enlisted.map (.recalc g) ++ [.unlockChannels] }

def recalc (g : Generation) (channel : ChannelId) : Move :=
  match e.channels[channel]? with
  | none => { engine := e }
  | some c => { engine := e.setChannel channel (c.recalc g) }

def unlockChannels : Move := { engine := { e with channelsLocked := false } }

end LogDispatch.Engine
