import ConnPool.Text.Blank
import ConnPool.Text.Quoted
import ConnPool.Duration.Text
import ConnPool.Isolation
import ConnPool.Properties
import ConnPool.Json
import ConnPool.Config.Decode
import ConnPool.Config.Render
import ConnPool.Toml.Value
import ConnPool.Driver.Bank
import ConnPool.Pool.Acquire
import ConnPool.Pool.Release
import ConnPool.Pool.Machine
import ConnPool.Pool.Stats
import ConnPool.Pool.Session
import ConnPool.Source.Session
import ConnPool.Simulation
import ConnPool.CommandLine
import ConnPool.Main
import ConnPool.Proofs.Pass
import ConnPool.Proofs.Return
import ConnPool.Proofs.Run
import ConnPool.Proofs.Limits
import ConnPool.Proofs.Observation
import ConnPool.Proofs.Ledger
import ConnPool.Proofs.Roster
import ConnPool.Proofs.Custody
import ConnPool.Proofs.Capacity
import ConnPool.Proofs.Wakeup
import ConnPool.Proofs.Erasure
import ConnPool.Proofs.Deeds
import ConnPool.Proofs.Conduct
import ConnPool.Proofs.Undisturbed
import ConnPool.Proofs.Callers
import ConnPool.Proofs.Belonging
import ConnPool.Proofs.Rollback
import ConnPool.Proofs.Queue
import ConnPool.Proofs.Shutdown
import ConnPool.Proofs.Plans
import ConnPool.Proofs.Opening
import ConnPool.Proofs.Generations
import ConnPool.Proofs.Keys
import ConnPool.Proofs.Tally
import ConnPool.Proofs.Increments
import ConnPool.Proofs.Statistics
import ConnPool.Proofs.Seniority
import ConnPool.Proofs.Counting
import ConnPool.Proofs.Decision
import ConnPool.Proofs.Bystander
import ConnPool.Proofs.Atomicity
import ConnPool.Proofs.Budget
import ConnPool.Proofs.Remains
import ConnPool.Proofs.Replacement
import ConnPool.Proofs.Stamps
import ConnPool.Proofs.AgeOrder
import ConnPool.Proofs.LastUse
import ConnPool.Proofs.Probing
import ConnPool.Proofs.Thrift
import ConnPool.Proofs.Config.RoundTrip
import ConnPool.Proofs.Simulation.Termination
import ConnPool.Proofs.Simulation.Accounting
import ConnPool.Proofs.Simulation.Throughput
import ConnPool.Proofs.Duration.Grammar
import ConnPool.Proofs.Duration.RoundTrip
import ConnPool.Proofs.Config.Resolution
import ConnPool.Proofs.Config.Account
import ConnPool.Proofs.Config.Secrecy
import ConnPool.Proofs.Config.Scaffold
