import EnhancedAgentBus.Persistence.ReplayEquality
import EnhancedAgentBus.Persistence.Isolation
import EnhancedAgentBus.Persistence.LiveInstance
import EnhancedAgentBus.Deliberation.Deadline
import EnhancedAgentBus.Deliberation.SharedStore
import EnhancedAgentBus.Collaboration.Versions
import EnhancedAgentBus.Collaboration.Undo
import EnhancedAgentBus.SagaPersistence.Locking
import EnhancedAgentBus.SagaPersistence.Transitions
import EnhancedAgentBus.SagaPersistence.Indexes
import EnhancedAgentBus.SagaPersistence.LostUpdates
import EnhancedAgentBus.Swarm.Consensus
import EnhancedAgentBus.Swarm.Bookkeeping
import EnhancedAgentBus.Constitutional.Coherence
import EnhancedAgentBus.Constitutional.Activation
import EnhancedAgentBus.Queue.Outcomes
import EnhancedAgentBus.Queue.Reload
import EnhancedAgentBus.Voting.Independence
import EnhancedAgentBus.Approvals.Finality
import EnhancedAgentBus.Persistence.RolledBack
import EnhancedAgentBus.Verification.LifeCycle
import EnhancedAgentBus.Workflows.Resumption
import EnhancedAgentBus.Verification.Atomicity
import EnhancedAgentBus.Swarm.Delivery
import EnhancedAgentBus.CircuitBreaker.HalfOpen
import EnhancedAgentBus.LlmAdapters.Budget
import EnhancedAgentBus.MultiTenancy.Quotas
import EnhancedAgentBus.MultiTenancy.Hierarchy
import EnhancedAgentBus.Governance.Proof
import EnhancedAgentBus.Batch.Duplicates
import EnhancedAgentBus.Maci.SelfValidation
import EnhancedAgentBus.EnterpriseSso.Cancellation
import EnhancedAgentBus.Constitutional.Epochs
import EnhancedAgentBus.Guardrails.LedgerFile
import EnhancedAgentBus.Guardrails.RateLimits
import EnhancedAgentBus.Constitutional.HitlIntegration
import EnhancedAgentBus.Deliberation.VoteConsumer
import EnhancedAgentBus.Constitutional.Council
import EnhancedAgentBus.ContextMemory.LongTermMemory
import EnhancedAgentBus.Pipeline.InformationFlow
import EnhancedAgentBus.Batch.ItemByItem
import EnhancedAgentBus.Batch.Rejection
import EnhancedAgentBus.Bus.DeliveryGate
import EnhancedAgentBus.Bus.Broadcast
import EnhancedAgentBus.Bus.SharedRuns
import EnhancedAgentBus.MessageProcessor.ValidationCache
import EnhancedAgentBus.Constitutional.AllOrNothing
import EnhancedAgentBus.Approvals.Monotone
import EnhancedAgentBus.Collaboration.Presence
import EnhancedAgentBus.LlmAdapters.Hedging
import EnhancedAgentBus.Federation.Handshake
import EnhancedAgentBus.SagaPersistence.FlywheelPaging
import EnhancedAgentBus.Persistence.EventLog
import EnhancedAgentBus.BundleRegistry.Distribution
import EnhancedAgentBus.Federation.BilateralAudit
import EnhancedAgentBus.Constitutional.AmendmentRows
import EnhancedAgentBus.Constitutional.VersionHistory
import EnhancedAgentBus.Swarm.WorkConservation
import EnhancedAgentBus.Federation.Intersection
import EnhancedAgentBus.Constitutional.DegradationDetector
import EnhancedAgentBus.ContextMemory.Streaming
import EnhancedAgentBus.MessageProcessor.IndependentValidators
import EnhancedAgentBus.AdaptiveGovernance.DtmcLearner
import EnhancedAgentBus.ContextMemory.Eviction
import EnhancedAgentBus.CircuitBreaker.RetryQueue
import EnhancedAgentBus.Governance.Representatives
