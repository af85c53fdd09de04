import TorchCraft.Board.Ownership
import TorchCraft.Controller.Runs
import TorchCraft.AutoBuild.Hatcheries
import TorchCraft.AutoBuild.Leftover
import TorchCraft.AutoBuild.Cereal
import TorchCraft.Blob.Versions
import TorchCraft.Blob.Redis
import TorchCraft.Batcher.Shutdown
import TorchCraft.Batcher.PriorityMutex
import TorchCraft.Parallel.Producer
import TorchCraft.Parallel.Consumer
import TorchCraft.DataReader.Stall
import TorchCraft.DataReader.Transform
import TorchCraft.Board.History
import TorchCraft.Board.Execution
import TorchCraft.Board.PositionTensor
import TorchCraft.Board.Proxies
import TorchCraft.Placer.Occupancy
import TorchCraft.Placer.Locations
import TorchCraft.Builder.Cancellation
import TorchCraft.Units.Types
import TorchCraft.Units.Sight
import TorchCraft.Areas.StartLocations
import TorchCraft.Areas.Bases
import TorchCraft.Gatherer.Bookkeeping
import TorchCraft.Tactics.Duplicates
import TorchCraft.Tactics.Process
import TorchCraft.Snapshot.Players
import TorchCraft.Scenarios.Provider
import TorchCraft.ReqRep.Lifecycle
import TorchCraft.Trainer.Episodes
import TorchCraft.Trainer.Evaluator
import TorchCraft.Trainer.Buffers
import TorchCraft.Trainer.Sending
import TorchCraft.Trainer.Rows
import TorchCraft.ZeroMQ.Delivery
import TorchCraft.Cpid2k.Rendezvous
import TorchCraft.Trackers.Movement
import TorchCraft.Units.Speed
import TorchCraft.CombatSim.Swarm
import TorchCraft.Gatherer.Bases
import TorchCraft.Features.Windows
import TorchCraft.Squads.Update
import TorchCraft.Strategy.Overlords
import TorchCraft.Strategy.Scouting
import TorchCraft.Utils.Rect
import TorchCraft.Common.Strings
