import Infiniswap.RemoteChunk.Validity
import Infiniswap.RemoteChunk.Claims
import Infiniswap.RemoteChunk.ProviderFailure
import Infiniswap.RemoteChunk.Translation
import Infiniswap.RemoteChunk.Refusals
import Infiniswap.RemoteChunk.Activity
import Infiniswap.RemoteChunk.Planning
import Infiniswap.RemoteChunk.StatusReport
import Infiniswap.Rdma.LeaseLifecycle
import Infiniswap.Rdma.ExactlyOnce
import Infiniswap.Provider.Receive
import Infiniswap.Block.Degraded
import Infiniswap.Control.Heartbeat
import Infiniswap.Control.ProviderList
import Infiniswap.Control.Reservation
import Infiniswap.Protocol.Canonical
import Infiniswap.Handshake.Agreement
import Infiniswap.Memory.Isolation
import Infiniswap.Memory.PressurePlan
import Infiniswap.Memory.Linearity
import Infiniswap.Provider.Revocation
import Infiniswap.Provider.SendOrder
import Infiniswap.Provider.Comments
import Infiniswap.Control.SessionTable
import Infiniswap.Block.Completion
import Infiniswap.Provider.Liveness
import Infiniswap.Provider.Responses
