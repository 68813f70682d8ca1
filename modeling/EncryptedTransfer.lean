import EncryptedTransfer.Cksum
import EncryptedTransfer.FileLedger
import EncryptedTransfer.KeyedTable
import EncryptedTransfer.ServerHandlers
import EncryptedTransfer.DiskConfinement
import EncryptedTransfer.ServerSession
import EncryptedTransfer.StreamFraming
import EncryptedTransfer.ThreadPools
import EncryptedTransfer.Transactions
import EncryptedTransfer.AtomicMethods
import EncryptedTransfer.RegisteredNames
import EncryptedTransfer.VerifiedFlag
import EncryptedTransfer.ClientProcess
import EncryptedTransfer.Network
import EncryptedTransfer.ClientMessages
import EncryptedTransfer.ServerTurns
import EncryptedTransfer.ClientRoster
import EncryptedTransfer.KeyAgreement
import EncryptedTransfer.FileNames
import EncryptedTransfer.UploadOutcome
import EncryptedTransfer.FirstTransfer
import EncryptedTransfer.ServerReplies
import EncryptedTransfer.RequestFormats
import EncryptedTransfer.BoundedRetries
import EncryptedTransfer.ClientReactions
import EncryptedTransfer.RetryProtocol
import EncryptedTransfer.LargeFiles
import EncryptedTransfer.EchoedNames
import EncryptedTransfer.Confirmations
import EncryptedTransfer.DetailsFile
import EncryptedTransfer.RegistrationAgreement
import EncryptedTransfer.FaultyDatabase
import EncryptedTransfer.TruthfulReplies
import EncryptedTransfer.ClientViews
import EncryptedTransfer.SeparateViews
import EncryptedTransfer.IndependentClients
import EncryptedTransfer.DisturbedMachines
import EncryptedTransfer.GateFailures
import EncryptedTransfer.OneAnswer
import EncryptedTransfer.KeyExchange
import EncryptedTransfer.TornUploads
import EncryptedTransfer.ClientUploads
import EncryptedTransfer.UploadItems
import EncryptedTransfer.PolynomialRemainders
import EncryptedTransfer.BitSerialCksum
import EncryptedTransfer.BurstErrors
import EncryptedTransfer.PartialTransfers
import EncryptedTransfer.PartialWrites
import EncryptedTransfer.PartialReads
import EncryptedTransfer.Loops
import EncryptedTransfer.TextLines
import EncryptedTransfer.FileHandler
import EncryptedTransfer.PersistedIdentity
import EncryptedTransfer.Numerals
import EncryptedTransfer.ClientPort
import EncryptedTransfer.PythonText
import EncryptedTransfer.ServerPort
import EncryptedTransfer.DatabaseMethods
import EncryptedTransfer.StoreInvariants
import EncryptedTransfer.Reload
import EncryptedTransfer.ServerLives
import EncryptedTransfer.ClientLives
import EncryptedTransfer.MainRuns
import EncryptedTransfer.FileHoldings
import EncryptedTransfer.TransferProgress
import EncryptedTransfer.CardIndex
import EncryptedTransfer.ClientTable
import EncryptedTransfer.ProcessStart
