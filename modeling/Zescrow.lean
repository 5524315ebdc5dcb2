import Zescrow.Core.JournalCodec
import Zescrow.Foundation.HashTree
import Zescrow.Foundation.Parser
import Zescrow.Foundation.Sha256
import Zescrow.Core.ConditionBinding
import Zescrow.Ethereum.Contract
import Zescrow.Ethereum.JournalBinding
import Zescrow.Ethereum.Machine
import Zescrow.Ethereum.Solvency
import Zescrow.Ethereum.Lifecycle
import Zescrow.Prover.Guest
import Zescrow.Ethereum.Release
import Zescrow.Ethereum.Replay
import Zescrow.Solana.Router
import Zescrow.Solana.Program
import Zescrow.Solana.ProofGate
import Zescrow.Solana.Runs
import Zescrow.Solana.Replay
import Zescrow.Core.Interface
import Zescrow.Client.Conditions
import Zescrow.Prover.Outcome
import Zescrow.Ethereum.Exit
import Zescrow.Ethereum.Window
import Zescrow.Solana.Window
import Zescrow.Agents.ReleaseWindow
import Zescrow.Solana.Lamports
import Zescrow.Solana.Rent
import Zescrow.Foundation.Radix
import Zescrow.Foundation.TextEncoding
import Zescrow.Core.IdentityText
import Zescrow.Client.Agents
import Zescrow.Client.Addresses
import Zescrow.Agents.TimeLocks
import Zescrow.Client.Creation
import Zescrow.Core.ConditionSelection
import Zescrow.Client.Finish
import Zescrow.Core.IdentityParsing
import Zescrow.Foundation.Bincode
import Zescrow.Prover.Input
import Zescrow.Foundation.Decimal
import Zescrow.Core.AmountFormat
import Zescrow.Foundation.Json
import Zescrow.Core.SavedFiles
import Zescrow.Foundation.Deposit
import Zescrow.Prover.Prove
import Zescrow.Solana.Exit
import Zescrow.Ethereum.Protocol
import Zescrow.Solana.Protocol
import Zescrow.Ethereum.Transaction
import Zescrow.Client.ReleaseProof
import Zescrow.Client.EthereumSettle
import Zescrow.Client.SolanaSettle
import Zescrow.Foundation.Borsh
import Zescrow.Foundation.Simulation
import Zescrow.Solana.Instructions
import Zescrow.Solana.Chain
import Zescrow.Client.Instructions
import Zescrow.Agents.JournalScope
import Zescrow.Foundation.Serde
import Zescrow.Core.Deserialization
import Zescrow.Core.LoadedFiles
import Zescrow.Client.Generate
import Zescrow.Foundation.Effect
import Zescrow.Client.Commands
import Zescrow.Client.Session
import Zescrow.Client.EthereumSession
