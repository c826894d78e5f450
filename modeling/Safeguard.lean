import Safeguard.Resilience.Layers
import Safeguard.Cancellation
import Safeguard.Scenario.Report
import Safeguard.Proofs.CircuitBreaker.Ledger
import Safeguard.Proofs.CircuitBreaker.Slots
import Safeguard.Proofs.CircuitBreaker.Tripping
import Safeguard.Proofs.CircuitBreaker.Closing
import Safeguard.Proofs.CircuitBreaker.Isolation
import Safeguard.Proofs.CircuitBreaker.Chronicle
import Safeguard.Proofs.Traffic.Permits
import Safeguard.Proofs.Traffic.Steps
import Safeguard.Proofs.Traffic.Scenarios
import Safeguard.Proofs.Traffic.Telling
import Safeguard.Proofs.CircuitBreaker.Cooldown
import Safeguard.Proofs.CircuitBreaker.Observing
import Safeguard.Proofs.Cancellation
import Safeguard.Proofs.Scalar
import Safeguard.Proofs.RateLimiter.Runs
import Safeguard.Proofs.RateLimiter.Bound
import Safeguard.Proofs.Binary64.Values
import Safeguard.Proofs.Binary64.Rounding
import Safeguard.Proofs.Binary64.Numbers
import Safeguard.Proofs.Binary64.Accuracy
import Safeguard.Proofs.RateLimiter.Range
import Safeguard.Proofs.Traffic.Rules
import Safeguard.Proofs.Traffic.Moves
import Safeguard.Proofs.Traffic.Course
import Safeguard.Proofs.Bulkhead.Slots
import Safeguard.Proofs.Traffic.Passages
import Safeguard.Proofs.Bulkhead.Conservation
import Safeguard.Proofs.Traffic.Journeys
import Safeguard.Proofs.Traffic.Invocations
import Safeguard.Proofs.Traffic.Flow
import Safeguard.Proofs.Traffic.Results
import Safeguard.Proofs.Executor.Conservation
import Safeguard.Proofs.Traffic.Untouched
import Safeguard.Proofs.Traffic.Turns
import Safeguard.Proofs.Traffic.GivingUp
import Safeguard.Proofs.Executor.Provenance
import Safeguard.Proofs.Executor.CuttingShort
import Safeguard.Proofs.Traffic.Nesting
import Safeguard.Proofs.Traffic.Unwinding
import Safeguard.Proofs.Executor.BreakingOff
import Safeguard.Proofs.Traffic.Deadlines
import Safeguard.Proofs.Executor.Racing
import Safeguard.Proofs.Json.Numerals
import Safeguard.Proofs.Json.Reading
import Safeguard.Proofs.Json.Records
import Safeguard.Proofs.Resilience.Saving
import Safeguard.Proofs.Resilience.Reloading
import Safeguard.Proofs.Resilience.Building
import Safeguard.Proofs.Traffic.Replacing
import Safeguard.Proofs.Executor.Components
import Safeguard.Proofs.Executor.Stations
import Safeguard.Proofs.Executor.Polling
import Safeguard.Proofs.Executor.Alone
import Safeguard.Proofs.Json.Members
import Safeguard.Proofs.Json.Sources
import Safeguard.Proofs.RateLimiter.Waiting
import Safeguard.Proofs.Resilience.Rearranging
import Safeguard.Proofs.Retry.Attempts
import Safeguard.Proofs.Retry.Immediate
import Safeguard.Proofs.Retry.Looping
import Safeguard.Proofs.Retry.Curve
import Safeguard.Proofs.CircuitBreaker.Automaton
import Safeguard.Proofs.RateLimiter.Lockstep
import Safeguard.Proofs.RateLimiter.Timer
import Safeguard.Proofs.RateLimiter.Requests
import Safeguard.Proofs.Failure.Searching
