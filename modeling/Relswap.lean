import Relswap.Durable.Check
import Relswap.Durable.Concurrent
import Relswap.Durable.Contract
import Relswap.Durable.Handover
import Relswap.Durable.Interference
import Relswap.Durable.Obligation
import Relswap.Durable.Outcome
import Relswap.Durable.Program
import Relswap.Fs.Path
import Relswap.Property.Agreement
import Relswap.Property.AssetNames
import Relswap.Property.BodyReaders
import Relswap.Property.Confinement
import Relswap.Property.Downgrade
import Relswap.Property.Extraction
import Relswap.Property.FilePrimitives
import Relswap.Property.Foreign
import Relswap.Property.Handover
import Relswap.Property.Identity
import Relswap.Property.Leftovers
import Relswap.Property.ManifestTargets
import Relswap.Property.NormalForm
import Relswap.Property.PaxRecords
import Relswap.Property.Publishing
import Relswap.Property.Rebuild
import Relswap.Property.Redirects
import Relswap.Property.ReleaseBase
import Relswap.Property.Reports
import Relswap.Property.Retention
import Relswap.Property.RoundTrip
import Relswap.Property.SelfTest
import Relswap.Property.SelfTestOutput
import Relswap.Property.Signature
import Relswap.Property.Signing
import Relswap.Property.TarReader
import Relswap.Property.Trust
import Relswap.Property.UnixSelector
import Relswap.Property.Unmanaged
import Relswap.Property.Wedge
import Relswap.Property.ZipMembers
import Relswap.Property.ZipPreflight
