import Zonecast.Backend.Client
import Zonecast.Configuration.Load
import Zonecast.Json.Printer
import Zonecast.Main
import Zonecast.Metrics.Lines
import Zonecast.Proofs.Acknowledgement
import Zonecast.Proofs.Bisection
import Zonecast.Proofs.ConfinedCommits
import Zonecast.Proofs.DecodedBytes
import Zonecast.Proofs.EnabledSigning
import Zonecast.Proofs.ExclusiveLeases
import Zonecast.Proofs.FailureMails
import Zonecast.Proofs.FilledTemplates
import Zonecast.Proofs.HostCommits
import Zonecast.Proofs.InterleavedLookups
import Zonecast.Proofs.InterruptedRollover
import Zonecast.Proofs.LabelSuffixes
import Zonecast.Proofs.NameGrammar
import Zonecast.Proofs.PublicationWindow
import Zonecast.Proofs.PublishedZone
import Zonecast.Proofs.QueueForms
import Zonecast.Proofs.RepeatedCommits
import Zonecast.Proofs.RepeatedUpkeep
import Zonecast.Proofs.ResolvedZones
import Zonecast.Proofs.ReturnedLeases
import Zonecast.Proofs.RolloverTurns
import Zonecast.Proofs.ShardLocks
import Zonecast.Proofs.ShownCredentials
import Zonecast.Proofs.SigningLifecycle
import Zonecast.Proofs.SigningPasses
import Zonecast.Proofs.SingleFile
import Zonecast.Proofs.StoredEstates
import Zonecast.Proofs.StoredRecords
import Zonecast.Proofs.UnbrokenSigning
import Zonecast.Proofs.UnsupportedTypes
import Zonecast.Proofs.WholeCommits
import Zonecast.Proofs.WireRecords
import Zonecast.Proofs.WrittenTags
import Zonecast.Publish.Outlet
import Zonecast.Rehearsal.Database
import Zonecast.Rehearsal.Loading
import Zonecast.Rehearsal.Run
import Zonecast.Rehearsal.Sample
