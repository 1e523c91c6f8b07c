import ChatHub.Lib.Stream
import ChatHub.Lib.Machine
import ChatHub.Lib.Utf8
import ChatHub.Frame.Runs
import ChatHub.Contracts.Frame
import ChatHub.Frame.Reference
import ChatHub.Frame.Refine
import ChatHub.Frame.Segmentation
import ChatHub.Frame.Bounds
import ChatHub.Lib.Decimal
import ChatHub.Lib.Json
import ChatHub.Lib.JsonText
import ChatHub.Lib.Double
import ChatHub.Contracts.Hello
import ChatHub.Hello.Fields
import ChatHub.Client.HelloCodec
import ChatHub.Server.HelloCodec
import ChatHub.Hello.Libraries
import ChatHub.Hello.Request
import ChatHub.Hello.Response
import ChatHub.Hello.Decoding
import ChatHub.Hello.Negotiation
import ChatHub.Contracts.Seq
import ChatHub.Contracts.AccountName
import ChatHub.Contracts.Uuid
import ChatHub.Hello.Grammar
import ChatHub.Hello.RequestGrammar
import ChatHub.Hello.ResponseGrammar
import ChatHub.Frame.Safety
import ChatHub.Pki.DevCa
import ChatHub.Lib.Schedule
import ChatHub.Server.TlsHandshake
import ChatHub.Frame.Confluence
import ChatHub.Frame.Work
import ChatHub.Hello.Exchange
import ChatHub.Server.HandshakeProgress
import ChatHub.Contracts.Capabilities
import ChatHub.Contracts.Registry
import ChatHub.Lib.Attempt
import ChatHub.Lib.Hex
import ChatHub.Pki.OpenSsl
import ChatHub.Pki.Issue
import ChatHub.Pki.Inspect
import ChatHub.Lib.Files
import ChatHub.Pki.Command
import ChatHub.Client.TlsClient
import ChatHub.Pki.Deployment
