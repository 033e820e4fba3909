import SshClientWasm.Library.Machine
import SshClientWasm.Library.Pipe
import SshClientWasm.Library.History
import SshClientWasm.Library.Host
import SshClientWasm.Library.AtomicStore
import SshClientWasm.Library.Hex
import SshClientWasm.Tunnel.RoundTrip
import SshClientWasm.Tunnel.Order
import SshClientWasm.Tunnel.Grammar
import SshClientWasm.Sftp.PutFile
import SshClientWasm.Sftp.Truth
import SshClientWasm.Bridge.Stream
import SshClientWasm.Bridge.Closure
import SshClientWasm.Bridge.Inbound
import SshClientWasm.Bridge.Outbound
import SshClientWasm.Bridge.Manager
import SshClientWasm.Bridge.Transports
import SshClientWasm.Bridge.Isolation
import SshClientWasm.Bridge.CloseTransport
import SshClientWasm.Bridge.Teardown
import SshClientWasm.Ssh.Pinning
import SshClientWasm.Ssh.Safety
import SshClientWasm.Ssh.Opening
import SshClientWasm.Ssh.Agreement
import SshClientWasm.Ssh.Initialize
import SshClientWasm.Ssh.OneProgram
import SshClientWasm.Ssh.Callbacks
import SshClientWasm.Ssh.Bindings
import SshClientWasm.Library.EventLoop
import SshClientWasm.Ssh.Handlers
import SshClientWasm.Ssh.Errors
import SshClientWasm.Tunnel.Turns
import SshClientWasm.Tunnel.Delivery
import SshClientWasm.Tunnel.Superseded
import SshClientWasm.Tunnel.Reconnect
import SshClientWasm.Tunnel.Handshake
import SshClientWasm.Tunnel.FrameLength
import SshClientWasm.Sftp.Sessions
import SshClientWasm.Library.Async
import SshClientWasm.Ssh.Operations
import SshClientWasm.Ssh.EarlyErrors
import SshClientWasm.Tunnel.Readiness
import SshClientWasm.Tunnel.Silence
import SshClientWasm.Library.Spawn
import SshClientWasm.Sftp.Handle
import SshClientWasm.Ssh.Interceptor
import SshClientWasm.Ssh.ShellOutput
import SshClientWasm.Ssh.Classification
import SshClientWasm.Ssh.StartShell
import SshClientWasm.Ssh.Points
import SshClientWasm.Ssh.Notifications
import SshClientWasm.Ssh.Shell
import SshClientWasm.Ssh.ShellInput
import SshClientWasm.Ssh.DeadShell
import SshClientWasm.Library.Base64
import SshClientWasm.Sftp.Payload
import SshClientWasm.Bridge.Views
import SshClientWasm.Bridge.Calls
import SshClientWasm.Bridge.CloseOnce
import SshClientWasm.Bridge.Progress
import SshClientWasm.React.Connection
import SshClientWasm.React.Quiescence
import SshClientWasm.React.Settling
import SshClientWasm.Bridge.EndToEnd
import SshClientWasm.Bridge.Overlap
import SshClientWasm.Library.Cursor
import SshClientWasm.Library.Handles
import SshClientWasm.React.Initialization
import SshClientWasm.Runtime.Arguments
import SshClientWasm.Runtime.Copying
import SshClientWasm.Runtime.Calling
import SshClientWasm.Sftp.Landing
import SshClientWasm.Runtime.Strings
import SshClientWasm.Ssh.FirstUse
