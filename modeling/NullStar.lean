import NullStar.SchemaWalk
import NullStar.JournalReplay
import NullStar.AllocationRegions
import NullStar.NegotiationFailure
import NullStar.ClientCalls
import NullStar.ObjectLifetime
import NullStar.Confinement
import NullStar.EndpointIpc
import NullStar.CopyOnWrite
import NullStar.AuthorityHistory
import NullStar.ContainmentAccounts
import NullStar.Forwarding
import NullStar.PortalCodec
import NullStar.Supervisor
import NullStar.VolumeRuns
import NullStar.RoundRobin
