import Spey.Interaction.Program
import Spey.Interaction.Action
import Spey.Interaction.History
import Spey.Interaction.Monitor
import Spey.Interaction.Machine
import Spey.Interaction.Await
import Spey.Interaction.Coupling
import Spey.Interaction.Transaction
import Spey.Table
import Spey.Bytes
import Spey.Decimal
import Spey.SQL
import Spey.Speyctl
import Spey.Speyctl.Edits
import Spey.Speyctl.Atomicity
import Spey.Exception
import Spey.Parser
import Spey.Socket
import Spey.SMTPCommand
import Spey.SMTPResponse
import Spey.Calls
import Spey.Auth
import Spey.Memory.Block
import Spey.Auth.Base64
import Spey.MessageProcessor
import Spey.World
import Spey.Auth.Credentials
import Spey.ServerProcessor
import Spey.Server.Outlive
import Spey.Greylist.Engine
import Spey.Greylist.History
import Spey.Wire.CommandRoundTrip
import Spey.Wire.Lines
import Spey.Wire.Body
import Spey.Wire.EndOfData
import Spey.Session.Steps
import Spey.Session.Loops
import Spey.Session.Outline
import Spey.Session.Machine
import Spey.Session.Refines
import Spey.Session.Events
import Spey.Session.Intolerant
import Spey.Session.Tolerant
import Spey.Session.Reached
import Spey.Session.OpenRelay
import Spey.Session.ToldAuthenticated
import Spey.Session.Door
import Spey.Session.Lockstep
import Spey.Session.Replies
import Spey.Session.Deferred
import Spey.Session.Sender
import Spey.Session.Trusted
import Spey.Session.Disconnect
import Spey.Greylist.Concurrent
import Spey.Session.FailingDatabase
import Spey.Session.Dialogue
import Spey.Session.Coupled
import Spey.Session.Starttls
import Spey.Wire.CommandGrammar
import Spey.Wire.ReplyFormat
import Spey.Session.ReplyShape
import Spey.Session.Flow
import Spey.Session.ProxiedAuth
import Spey.Session.Advertised
import Spey.Auth.Buffer
import Spey.Statistics
import Spey.Recipients
import Spey.Session.WholeAddress
import Spey.Wire.LineCodec
import Spey.Interaction.Avoids
import Spey.Session.LetterCase
import Spey.Wire.ReplyGrammar
import Spey.Wire.ShortWrite
import Spey.Greylist.Dates
import Spey.Wire.ReadTimeout
import Spey.Speyctl.TrustList
import Spey.TrustedHosts
import Spey.Session.Cause
import Spey.Session.Envelope
import Spey.Speyctl.TrustSpec
import Spey.Interaction.Contract
import Spey.Interaction.Implement
import Spey.Interaction.Crew
import Spey.Interaction.Mutex
import Spey.Interaction.Serial
import Spey.Interaction.Ownership
import Spey.Interaction.Schedule
import Spey.Daemon.SystemCalls
import Spey.Daemon.Socket
import Spey.Daemon.Threads
import Spey.Daemon.Startup
import Spey.Daemon.Kernel
import Spey.Daemon.Scene
import Spey.Daemon.Lock
import Spey.Daemon.Exclusion
import Spey.Daemon.Pieces
import Spey.Daemon.Greylisting
import Spey.Daemon.Ownership
import Spey.Daemon.Descriptors
import Spey.Daemon.Privileges
import Spey.Daemon.Parts
import Spey.Daemon.Wire
import Spey.Daemon.Conversation
import Spey.Speyctl.LastSet
import Spey.Daemon.LastSet
