import UrlReservations.CommandLine.Directory
import UrlReservations.Main
import UrlReservations.Proofs.Authoring
import UrlReservations.Proofs.Owner
import UrlReservations.Proofs.Acceptance
import UrlReservations.Proofs.Delivery
import UrlReservations.Proofs.Reporting
import UrlReservations.Proofs.Dispatching
import UrlReservations.Proofs.Composition
import UrlReservations.Proofs.Gating
import UrlReservations.Proofs.CommandLine
import UrlReservations.Proofs.Editing
import UrlReservations.Proofs.ForeignMarkup
import UrlReservations.Proofs.Linkage
import UrlReservations.Proofs.Derivation
import UrlReservations.Proofs.WellFormedRows
import UrlReservations.Proofs.Names
import UrlReservations.Proofs.AnonymousComponents
import UrlReservations.Proofs.Coverage
import UrlReservations.Proofs.Operations
import UrlReservations.Proofs.Refusals
import UrlReservations.Proofs.Answers
import UrlReservations.Proofs.Unread
import UrlReservations.Proofs.Exactness
import UrlReservations.Proofs.Freezing
import UrlReservations.Proofs.Arrangement
import UrlReservations.Proofs.ContextKeys
import UrlReservations.Proofs.JsonReader
import UrlReservations.Proofs.JsonRoundTrip
import UrlReservations.Proofs.Registration
import UrlReservations.Proofs.JsonRecords
import UrlReservations.Proofs.YamlScalars
import UrlReservations.Proofs.YamlSheets
import UrlReservations.Proofs.Visiting
import UrlReservations.Proofs.Appending
import UrlReservations.Proofs.Pointing
