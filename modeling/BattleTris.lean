import BattleTris.Lib.Loop
import BattleTris.Lib.Grid
import BattleTris.Lib.Machine
import BattleTris.Lib.Codec
import BattleTris.Lib.Run
import BattleTris.Lib.Countdown
import BattleTris.Lib.Numbered
import BattleTris.Lib.Binary64
import BattleTris.Core.Primitives
import BattleTris.Core.Weapons
import BattleTris.Core.Board
import BattleTris.Core.BoardSpec
import BattleTris.Core.Piece
import BattleTris.Core.Game
import BattleTris.Core.Exports
import BattleTris.Core.Bazaar
import BattleTris.Core.Slots
import BattleTris.Core.Regular
import BattleTris.Core.Gliding
import BattleTris.Core.Keyframe
import BattleTris.Core.KeyframeRoundTrip
import BattleTris.Core.KeyframeReject
import BattleTris.Core.Framing
import BattleTris.Core.Dressing
import BattleTris.Core.Overlap
import BattleTris.Core.Tiling
import BattleTris.Core.Garbage
import BattleTris.Core.Removal
import BattleTris.Core.LineClears
import BattleTris.Core.Insertion
import BattleTris.Core.Veil
import BattleTris.Core.Versus
import BattleTris.Core.RelaySpec
import BattleTris.Replay.Input
import BattleTris.Replay.VersusReplay
import BattleTris.Match.Play
import BattleTris.Replay.Echo
import BattleTris.Match.VsComputer
import BattleTris.Lib.Recording
import BattleTris.Ai.Placement
import BattleTris.Ai.Strategy
import BattleTris.Ai.Computer
import BattleTris.Replay.Recording
import BattleTris.Match.Resume
import BattleTris.Match.Lockstep
import BattleTris.Match.DeferredSwap
import BattleTris.Match.Locks
import BattleTris.Match.Gears
import BattleTris.Match.Derived
import BattleTris.Match.Denial
import BattleTris.Match.LockHash
import BattleTris.Match.Obstruction
import BattleTris.Match.Tiles
import BattleTris.Match.BottleWalls
import BattleTris.Match.ClearFunds
import BattleTris.Match.Mondale
import BattleTris.Netcode.Predictor
import BattleTris.Netcode.Rejected
import BattleTris.Netcode.Detector
import BattleTris.Netcode.Divergence
import BattleTris.Server.Bout
import BattleTris.Server.Discipline
import BattleTris.Server.RunBout
import BattleTris.Server.Sending
import BattleTris.Server.Acks
import BattleTris.Server.Reading
import BattleTris.Server.Effects
import BattleTris.Server.FogOfWar
import BattleTris.Server.Playback
import BattleTris.Server.Grace
import BattleTris.Server.Lobby
import BattleTris.Server.Rejoin
import BattleTris.Server.Bindings
import BattleTris.Server.Ratings
import BattleTris.Server.Archive
import BattleTris.Core.Stock
import BattleTris.Core.Falls
import BattleTris.Core.Landing
import BattleTris.Core.Rotation
import BattleTris.Ai.Orders
import BattleTris.Ai.Steering
import BattleTris.Ai.Stranded
import BattleTris.Ai.Reaching
import BattleTris.Ai.Cooldown
import BattleTris.Ai.BuyPlan
import BattleTris.Lib.Sql
import BattleTris.Lib.Lcg
import BattleTris.Lib.Search
import BattleTris.Match.Tally
import BattleTris.Match.Flight
import BattleTris.Match.DropBonus
import BattleTris.Match.Sampling
import BattleTris.Match.Drawing
import BattleTris.Server.SpyBudget
import BattleTris.Server.Prune
import BattleTris.Match.Barrier
import BattleTris.Netcode.Handshake
import BattleTris.Netcode.Wire
import BattleTris.Netcode.Reconcile
import BattleTris.Netcode.BotDriver
import BattleTris.Match.Restored
import BattleTris.Server.Scrub
import BattleTris.Netcode.Design
import BattleTris.Netcode.Refinement
