import Planten.Kernel.VgaBuffer
import Planten.Namespace.Endpoints
import Planten.Namespace.Flags
import Planten.Namespace.Probes
import Planten.Namespace.Sharing
import Planten.Namespace.UnionMembers
import Planten.PseudoFs.Lookups
import Planten.PseudoFs.ServiceFiles
import Planten.RamFs.Acknowledgements
import Planten.RamFs.Atomicity
import Planten.RamFs.Bindings
import Planten.RamFs.Creations
import Planten.RamFs.DirReads
import Planten.RamFs.EndToEnd
import Planten.RamFs.History
import Planten.RamFs.Qids
import Planten.RamFs.Restats
import Planten.Services.Attach
import Planten.Services.Clones
import Planten.Services.MessageSize
import Planten.Services.Opens
import Planten.Services.QidKinds
import Planten.Services.WalkNames
import Planten.Services.Windows
import Planten.RamFs.FlatServer
import Planten.RamFs.Isolation
import Planten.RamFs.Threads
import Planten.Namespace.RamShares
import Planten.RamFs.Wire
import Planten.RamFs.Permissions
import Planten.RamFs.Chronicles
import Planten.Namespace.ServiceShares
import Planten.NineP.Conversations
import Planten.Services.EndToEnd
import Planten.Namespace.Children
import Planten.Services.Hosting
import Planten.Services.Streams
import Planten.Services.Observers
import Planten.Namespace.Turns
