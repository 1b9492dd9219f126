import SneakySneaky.Foundation.Cells
import SneakySneaky.Foundation.Decimal
import SneakySneaky.Foundation.Loops
import SneakySneaky.Foundation.Metronome
import SneakySneaky.Foundation.Draws
import SneakySneaky.Foundation.RefCount
import SneakySneaky.Foundation.Runs
import SneakySneaky.Foundation.Binary32
import SneakySneaky.Foundation.TimedQueue
import SneakySneaky.Engine
import SneakySneaky.LoadLevel.Grid
import SneakySneaky.RoomIndex
import SneakySneaky.AudioManager
import SneakySneaky.MrWright
import SneakySneaky.LoadLevel.Room
import SneakySneaky.Items
import SneakySneaky.LevelComponents
import SneakySneaky.Level
import SneakySneaky.LevelSteps
import SneakySneaky.Game
import SneakySneaky.GameSteps
import SneakySneaky.Progression
import SneakySneaky.EndLevelLatch
import SneakySneaky.BossVictory
import SneakySneaky.QueueEnds
import SneakySneaky.Guard
import SneakySneaky.GuardAlerts
import SneakySneaky.WifePuzzle
import SneakySneaky.Analytics
import SneakySneaky.Frame
import SneakySneaky.Scenes
import SneakySneaky.Scores
import SneakySneaky.Playthroughs
import SneakySneaky.Movies
import SneakySneaky.DebugDrawing
import SneakySneaky.PadlockPanels
import SneakySneaky.LevelTeardown
import SneakySneaky.CameraSweep
import SneakySneaky.Lasers
import SneakySneaky.LaserAlarm
import SneakySneaky.Doors
import SneakySneaky.GlyphRow
import SneakySneaky.GlyphObjects
import SneakySneaky.PosterRooms
import SneakySneaky.CompletionTime
import SneakySneaky.InventoryScreen
import SneakySneaky.PickupContacts
import SneakySneaky.GuardPatrol
import SneakySneaky.GuardReturns
import SneakySneaky.Shuffles
import SneakySneaky.Animations
import SneakySneaky.BerthaFight
import SneakySneaky.LevelHits
import SneakySneaky.CameraFollow
import SneakySneaky.PersonWalk
import SneakySneaky.Security
import SneakySneaky.HeldKeys
import SneakySneaky.ThrownItems
import SneakySneaky.Keys
import SneakySneaky.PlayingTime
import SneakySneaky.Campaigns
import SneakySneaky.DeadEnds
import SneakySneaky.GuardPosts
import SneakySneaky.Reports
