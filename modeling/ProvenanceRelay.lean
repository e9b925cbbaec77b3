import ProvenanceRelay.CommandLine.World
import ProvenanceRelay.Main
import ProvenanceRelay.Record.Draft
import ProvenanceRelay.Trace
import ProvenanceRelay.Proofs.Interleaving
import ProvenanceRelay.Proofs.Figures
import ProvenanceRelay.Proofs.JsonText
import ProvenanceRelay.Proofs.LineWriting
import ProvenanceRelay.Proofs.TornLines
import ProvenanceRelay.Proofs.Conservation
import ProvenanceRelay.Proofs.LineOutput
import ProvenanceRelay.Proofs.Losses
import ProvenanceRelay.Proofs.DecodeFaults
import ProvenanceRelay.Proofs.ShortLayout
import ProvenanceRelay.Proofs.LongLayout
import ProvenanceRelay.WorkerPool.Workplace
import ProvenanceRelay.Proofs.PoolRun
import ProvenanceRelay.Proofs.PoolUse
import ProvenanceRelay.Proofs.RelayMoves
import ProvenanceRelay.Proofs.RelayOrder
import ProvenanceRelay.Proofs.ReaderStart
import ProvenanceRelay.Proofs.Startup
import ProvenanceRelay.Proofs.FilePlaces
import ProvenanceRelay.Proofs.Stopping
import ProvenanceRelay.Proofs.Registration
import ProvenanceRelay.NameTable.Threads
import ProvenanceRelay.Proofs.FirstWriter
import ProvenanceRelay.Output.Notice
import ProvenanceRelay.Proofs.KindTables
import ProvenanceRelay.Proofs.Suppression
import ProvenanceRelay.Output.Handover
import ProvenanceRelay.Relay.Crew
import ProvenanceRelay.Proofs.CrewTurns
import ProvenanceRelay.Proofs.Handovers
import ProvenanceRelay.Proofs.SharedOutput
import ProvenanceRelay.Proofs.OutputFile
import ProvenanceRelay.Proofs.WholeLines
import ProvenanceRelay.Proofs.Uninterrupted
import ProvenanceRelay.Proofs.ConfigHistory
import ProvenanceRelay.Proofs.DrainRoom
import ProvenanceRelay.Proofs.SavedConfig
import ProvenanceRelay.Proofs.Stragglers
import ProvenanceRelay.Proofs.Outcomes
import ProvenanceRelay.Proofs.QueryMode
import ProvenanceRelay.Proofs.IdentifierText
import ProvenanceRelay.Proofs.JsonReading
import ProvenanceRelay.Proofs.DocumentReading
import ProvenanceRelay.Proofs.LineReading
import ProvenanceRelay.Proofs.LineText
import ProvenanceRelay.Proofs.DraftReading
import ProvenanceRelay.Proofs.PidText
import ProvenanceRelay.Proofs.Signalling
import ProvenanceRelay.PidFile.Owners
import ProvenanceRelay.Proofs.Owners
import ProvenanceRelay.Proofs.PidReading
import ProvenanceRelay.Proofs.ConfigCheck
import ProvenanceRelay.Proofs.DrainCounts
import ProvenanceRelay.Proofs.Leaving
import ProvenanceRelay.Proofs.PrintedIdentifiers
