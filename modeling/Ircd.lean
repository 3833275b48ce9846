import Ircd.Text.CString
import Ircd.Text.Mask
import Ircd.Text.Number
import Ircd.Channel.State
import Ircd.Channel.Store
import Ircd.Channel.Sjoin
import Ircd.Channel.Members
import Ircd.Channel.SjoinEffect
import Ircd.Channel.SjoinOrder
import Ircd.Channel.Join
import Ircd.Channel.Part
import Ircd.Channel.Mode
import Ircd.Channel.Mirror
import Ircd.Channel.Edit
import Ircd.Channel.Clean
import Ircd.Channel.PartClean
import Ircd.Channel.JoinClean
import Ircd.Channel.SjoinClean
import Ircd.Channel.ModeClean
import Ircd.Channel.Freed
import Ircd.Channel.ModeFreed
import Ircd.Lib.Machine
import Ircd.Channel.Runs
import Ircd.Channel.Lifetime
import Ircd.Channel.Membership
import Ircd.Channel.Takeover
import Ircd.Conf.Address
import Ircd.Conf.File
import Ircd.Conf.Rewrite
import Ircd.Conf.Unkline
import Ircd.Conf.Subtree
import Ircd.Conf.IpTable
import Ircd.Conf.IpKline
import Ircd.Conf.Dline
import Ircd.Conf.Mtrie
import Ircd.Text.Glob
import Ircd.Conf.HostMask
import Ircd.Conf.MtrieSound
import Ircd.Message.Flud
import Ircd.Message.Message
import Ircd.Message.Targets
import Ircd.Message.Lists
import Ircd.Channel.LocalView
import Ircd.Channel.SjoinView
import Ircd.Channel.SjoinInStep
import Ircd.Lib.Chain
import Ircd.Net.Dbuf
import Ircd.Net.Packet
import Ircd.Net.Unzip
import Ircd.Net.Send
import Ircd.Net.SendOrder
import Ircd.Net.SendReturns
import Ircd.Net.Listing
import Ircd.Net.ListRun
import Ircd.Net.ZipOut
import Ircd.Net.Auth
import Ircd.Net.AuthRun
import Ircd.Net.Flood
import Ircd.Lib.Forest
import Ircd.Server.Burst
import Ircd.Server.MServer
import Ircd.Server.Graph
import Ircd.Server.UserMode
import Ircd.Lib.Buckets
import Ircd.Server.Whowas
import Ircd.Channel.Invite
import Ircd.Channel.InviteRuns
import Ircd.Message.FludMirror
import Ircd.Conf.Pending
import Ircd.Lib.ChainTable
import Ircd.Server.NameTable
import Ircd.Server.NameRuns
import Ircd.Server.Roles
import Ircd.Server.RoleLists
import Ircd.Server.RoleRuns
import Ircd.Server.RoleCounts
import Ircd.Server.UmodeRelay
import Ircd.Conf.Attach
import Ircd.Server.Oper
import Ircd.Server.NickChange
import Ircd.Channel.RemoteJoin
import Ircd.Lib.Bitmap
import Ircd.Memory.BlockHeap
import Ircd.Memory.HeapRuns
import Ircd.Lib.Marks
import Ircd.Message.Broadcast
import Ircd.Message.ChannelType
import Ircd.Conf.IpHash
import Ircd.Conf.IpRuns
import Ircd.Conf.Gline
import Ircd.Conf.GlineRuns
import Ircd.Text.Search
import Ircd.Channel.Bans
import Ircd.Channel.ModeParams
import Ircd.Channel.ModeQuery
import Ircd.Channel.JoinKeys
import Ircd.Channel.ModeBuffers
import Ircd.Channel.BanRuns
import Ircd.Channel.SjoinRelay
import Ircd.Conf.AddressGrammar
import Ircd.Conf.ClassLimits
import Ircd.Message.Canonize
import Ircd.Server.NextClient
import Ircd.Server.MaskLines
import Ircd.Text.Format
import Ircd.Channel.KeyRoundTrip
import Ircd.Conf.Tkline
import Ircd.Message.MessageTree
import Ircd.Message.Parse
import Ircd.Conf.LiftTkline
import Ircd.Conf.TklineTime
import Ircd.Server.Scache
import Ircd.Conf.Cluster
import Ircd.Conf.Blocks
import Ircd.Server.MaskInverse
import Ircd.Server.UmodeFits
import Ircd.Message.Encap
import Ircd.Channel.Names
import Ircd.Channel.Secrecy
import Ircd.Server.Direct
import Ircd.Server.Hunt
import Ircd.Server.Map
import Ircd.Conf.TrieStack
import Ircd.Message.EncapTree
import Ircd.Server.Netsplit
