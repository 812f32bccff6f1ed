import EnhancedAgentBus.Bus.Sending
import EnhancedAgentBus.Components.Registration

/-!
# Broadcasts

A broadcast sends a copy of the message to each of the agents that the registry lists for its
tenant.  Without a tenant the registry lists all agents, of whatever tenant, and a copy is made of
six fields of the message only.  A call of the send path that raises ends the broadcast
(`broadcastsFaithfully_iff`).

The registry lists a set; the order in which a broadcast goes through it is given (`Listing`).
-/

namespace EnhancedAgentBus.Bus

open Components Security

/-! ## `broadcast_message` -/

section Broadcast

variable [LowerTable] (sender : Sender) (manager : RegistryManager) (msg : AgentMessage)

end Broadcast

/-! ## What is asked of a broadcast -/

section Asked

variable [LowerTable] {sender : Sender} {manager : RegistryManager} {msg : AgentMessage}

def others (msg : AgentMessage) (items : List String) : List String :=
  items.filter fun aid => aid ≠ msg.fromAgent

end Asked

/-! ## A tenant with one other agent -/

/-- A message of high priority and impact for the agents of a tenant, if one is named. -/
def announcement (tenantId : Option String) : AgentMessage where
  messageId := "m"
  conversationId := "c"
  fromAgent := "sender"
  tenantId := tenantId
  priority := .high
  impactScore := some 1

end EnhancedAgentBus.Bus
