import DataProcessor.Lib.BigEndian
import DataProcessor.Lib.Radix
import DataProcessor.Lib.CopyLoops
import DataProcessor.Lib.CubicRoots
import DataProcessor.Model.Kotlin
import DataProcessor.Model.ByteArrays
import DataProcessor.Lib.Primality
import DataProcessor.Lib.ShortCurve
import DataProcessor.Lib.Jacobian
import DataProcessor.Lib.EcdsaScheme
import DataProcessor.Proofs.EcdsaPoints
import DataProcessor.Proofs.GroupLaw
import DataProcessor.Proofs.PublicKeys
import DataProcessor.Proofs.EcdsaSign
import DataProcessor.Proofs.EcdsaVerify
import DataProcessor.Proofs.RecoverIds
import DataProcessor.Proofs.RecoveredKeys
import DataProcessor.Model.Curve
import DataProcessor.Model.Ecdsa
import DataProcessor.Model.Encoding
import DataProcessor.Model.Recoverable
import DataProcessor.Model.Signatures
import DataProcessor.Model.TezosProvider
import DataProcessor.Proofs.SigningPlatform
import DataProcessor.Proofs.SignatureWidth
import DataProcessor.Proofs.OwnSignatures
import DataProcessor.Lib.Abi
import DataProcessor.Model.V8
import DataProcessor.Model.Evm
import DataProcessor.Proofs.AbiCall
import DataProcessor.Model.Android
import DataProcessor.Model.Micheline
import DataProcessor.Model.Prelude
import DataProcessor.Model.SweetB
import DataProcessor.Model.TezosFulfill
import DataProcessor.Model.EthereumFulfill
import DataProcessor.Proofs.Extras
import DataProcessor.Model.GenericEcdsa
import DataProcessor.Model.SharedKey
import DataProcessor.Proofs.SharedKeys
import DataProcessor.Lib.Transition
import DataProcessor.Model.Counter
import DataProcessor.Proofs.CounterRuns
import DataProcessor.Model.CounterCalls
import DataProcessor.Proofs.CounterGaps
import DataProcessor.Model.Cache
import DataProcessor.Proofs.CacheKeys
import DataProcessor.Model.Scheduler
import DataProcessor.Proofs.RequestCodes
import DataProcessor.Model.Allocation
import DataProcessor.Proofs.AllocationRuns
import DataProcessor.Lib.Periods
import DataProcessor.Proofs.FetchRuns
import DataProcessor.Model.KeyFile
import DataProcessor.Proofs.KeyFileRuns
import DataProcessor.Proofs.RawSign
import DataProcessor.Proofs.SignRange
import DataProcessor.Lib.Accounts
import DataProcessor.Lib.Loops
import DataProcessor.Model.Callbacks
import DataProcessor.Model.EthereumAccount
import DataProcessor.Model.Extrinsics
import DataProcessor.Model.FulfillTasks
import DataProcessor.Model.Networking
import DataProcessor.Model.Utf8
import DataProcessor.Model.Pack
import DataProcessor.Model.V8Executor
import DataProcessor.Model.V8Locker
import DataProcessor.Proofs.FetchBatches
import DataProcessor.Proofs.FulfillCallbacks
import DataProcessor.Proofs.JobIdentifiers
import DataProcessor.Proofs.LockerRuns
import DataProcessor.Proofs.NextAlarms
import DataProcessor.Proofs.ScheduleWraps
import DataProcessor.Model.Executions
import DataProcessor.Proofs.ExecutionRuns
import DataProcessor.Proofs.NonceRuns
import DataProcessor.Proofs.PackAgreement
import DataProcessor.Proofs.MichelineValues
import DataProcessor.Proofs.Base58Check
import DataProcessor.Proofs.RequestCallbacks
import DataProcessor.Model.Reveal
import DataProcessor.Proofs.RevealOrder
import DataProcessor.Proofs.NativeCopies
import DataProcessor.Proofs.InverseLoop
import DataProcessor.Lib.Limbs
import DataProcessor.Model.FieldElement
import DataProcessor.Model.SwCurves
import DataProcessor.Proofs.FieldBytes
import DataProcessor.Proofs.SwFields
import DataProcessor.Lib.CoZ
import DataProcessor.Model.PointArithmetic
import DataProcessor.Lib.BlockStream
import DataProcessor.Lib.HashConstructions
import DataProcessor.Lib.Sha256
import DataProcessor.Model.PointChecks
import DataProcessor.Model.Sha256
import DataProcessor.Proofs.PointChecks
import DataProcessor.Proofs.Sha256Runs
import DataProcessor.Proofs.HmacRuns
import DataProcessor.Proofs.HmacDrbgRuns
import DataProcessor.Model.FetchJobs
import DataProcessor.Proofs.CurveGroups
import DataProcessor.Proofs.FieldElements
import DataProcessor.Proofs.FieldPowers
import DataProcessor.Proofs.ModularElements
import DataProcessor.Proofs.MontgomeryElements
import DataProcessor.Proofs.PointLadder
import DataProcessor.Proofs.PointMultiplication
import DataProcessor.Proofs.PointRegisters
import DataProcessor.Proofs.SwCurvePoints
