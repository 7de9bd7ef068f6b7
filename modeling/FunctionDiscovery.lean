import FunctionDiscovery.Main
import FunctionDiscovery.Proofs.Accounting
import FunctionDiscovery.Proofs.Bounds
import FunctionDiscovery.Proofs.CompletionOrder
import FunctionDiscovery.Proofs.ImageLayout
import FunctionDiscovery.Proofs.ModuleLookup
import FunctionDiscovery.Proofs.RenderedListing
import FunctionDiscovery.Proofs.Repetition
import FunctionDiscovery.Proofs.Resolution
import FunctionDiscovery.Proofs.RuntimeTable
import FunctionDiscovery.Proofs.Shown
import FunctionDiscovery.Proofs.TableHistory
import FunctionDiscovery.Proofs.EvenShards
import FunctionDiscovery.Proofs.PointerCells
import FunctionDiscovery.Proofs.AddressText
import FunctionDiscovery.Proofs.Arrangement
import FunctionDiscovery.Proofs.ClaimSequences
import FunctionDiscovery.Proofs.ListingFaults
import FunctionDiscovery.Proofs.RecordCodec
import FunctionDiscovery.Proofs.LinearScan
import FunctionDiscovery.Proofs.DisjointModules
import FunctionDiscovery.Proofs.CutListing
