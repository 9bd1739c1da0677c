import BenkerVpn.Library.Chains
import BenkerVpn.Model.Server

/-!
# The session table in memory

Model of `lib/session_struct.c` one level below `Model.SessionStruct`: the nodes of the linked lists
are cells at addresses, linked by their `next` pointers, and session objects are allocated and
freed. Every access goes through an address and faults if nothing is in use there, so a use after
`free`, a second `free` and an access through `NULL` are faults of the run. `calloc` may return any
address that is not in use, one of a freed node among them, or `NULL`, which none of its callers
checks for. The `while` loops along the lists get a bound on their rounds and fault if it does not
suffice.

The handlers of `lib/packet_handler.c` are given on this level up to their accesses to sessions;
what they do to the packet is that of `Model.PacketHandler`.
-/

set_option autoImplicit false

namespace BenkerVpn.Pointers

open Library.Chains

/-- Address of a node. -/
abbrev NodePtr := Nat

/-- `struct session_linked_list`: a cell that holds a pointer to a session. -/
abbrev SessionLinkedList := Cell SessionPtr

/-- Why a run ends early. -/
inductive Fault where
  -- nothing is in use at the address
  | invalidAccess
  -- the address is the `NULL` of a failed `calloc`
  | outOfMemory
  -- a loop is still running after the rounds it was given
  | running
  deriving DecidableEq, Repr

/-- What `calloc` returns: whether there is memory for the `n`-th session object, and the address of
the `n`-th node, which may depend on the nodes in use but is none of them. -/
structure Calloc where
  session : Nat → Bool
  node : Nat → Heap SessionPtr → Option NodePtr
  node_free : ∀ n nodes p, node n nodes = some p → nodes p = none

/-- `struct session_hash_table`; an array of list heads that has been freed is `none`. -/
structure SessionHashTable where
  listClientKey : Option (Nat → Option NodePtr)
  listServerKey : Option (Nat → Option NodePtr)
  len : Nat
  minPort : UInt16
  modNum : UInt16
  nextNum : UInt32

/-- What the session functions read and write: the nodes and the session objects in use, how many
of each have been allocated so far, the table, and the readings of the clock still to come. The
session objects are named in the order of their allocation. -/
structure Memory where
  nodes : Heap SessionPtr
  sessions : SessionPtr → Option TcpSession
  nodeCount : Nat
  brk : SessionPtr
  table : SessionHashTable
  clock : Nat → Int

/-! ## Accesses -/

/-- An access to what is in use, if anything is. -/
def access {α : Type} : Option α → Except Fault α
  | some a => .ok a
  | none => .error .invalidAccess

namespace Memory

/-- The memory after a call of `time(NULL)`. -/
def tick (mem : Memory) : Memory := { mem with clock := fun k => mem.clock (1 + k) }

/-- The memory after a write of `next_num`. -/
def setNextNum (mem : Memory) (n : UInt32) : Memory :=
  { mem with table := { mem.table with nextNum := n } }

/-- The memory after a write of `list_client_key[i]`. -/
def setClientHead (mem : Memory) (i : Nat) (head : Option NodePtr) : Memory :=
  { mem with table := { mem.table with
      listClientKey := mem.table.listClientKey.map fun heads => Function.update heads i head } }

/-- The memory after a write of `list_server_key[i]`. -/
def setServerHead (mem : Memory) (i : Nat) (head : Option NodePtr) : Memory :=
  { mem with table := { mem.table with
      listServerKey := mem.table.listServerKey.map fun heads => Function.update heads i head } }

/-- The node at an address. -/
def node (mem : Memory) (p : NodePtr) : Except Fault SessionLinkedList := access (mem.nodes p)

/-- The session at an address. -/
def session (mem : Memory) (s : SessionPtr) : Except Fault TcpSession := access (mem.sessions s)

/-- The memory after a write of the `next` pointer of a node. -/
def setNext (mem : Memory) (p : NodePtr) (next : Option NodePtr) : Except Fault Memory := do
  let node ← mem.node p
  pure { mem with nodes := mem.nodes.write p { node with next := next } }

/-- The memory after a write of fields of a session. -/
def updateSession (mem : Memory) (s : SessionPtr) (f : TcpSession → TcpSession) :
    Except Fault Memory := do
  let session ← mem.session s
  pure { mem with sessions := Function.update mem.sessions s (some (f session)) }

/-- `free` of a node. -/
def freeNode (mem : Memory) (p : NodePtr) : Except Fault Memory := do
  let _ ← mem.node p
  pure { mem with nodes := mem.nodes.erase p }

/-- `free` of a session. -/
def freeSession (mem : Memory) (s : SessionPtr) : Except Fault Memory := do
  let _ ← mem.session s
  pure { mem with sessions := Function.update mem.sessions s none }

end Memory

/-- `list[i]` of an array of `len` list heads. -/
def headAt (list : Option (Nat → Option NodePtr)) (len i : Nat) :
    Except Fault (Option NodePtr) := do
  let heads ← access list
  if i < len then pure (heads i) else .error .invalidAccess

/-! ## Linked lists -/

/-- `calloc` of a node and the write of its `session`, through `NULL` if there is no memory. -/
def newNode (calloc : Calloc) (mem : Memory) (session : SessionPtr) :
    Except Fault (NodePtr × Memory) :=
  match calloc.node mem.nodeCount mem.nodes with
  | none => .error .outOfMemory
  | some p =>
      .ok (p, { mem with
        nodes := mem.nodes.write p ⟨session, none⟩
        nodeCount := mem.nodeCount + 1 })

/-- The loop of `insert_tcp_session` to the last node. -/
def lastNode (mem : Memory) : Nat → NodePtr → Except Fault NodePtr
  | 0, _ => .error .running
  | fuel + 1, head => do
      let node ← mem.node head
      match node.next with
      | none => pure head
      | some next => lastNode mem fuel next

/-- `insert_tcp_session`; the list head it stores through `_head` is returned. -/
def insertTcpSession (calloc : Calloc) (fuel : Nat) (mem : Memory) (head : Option NodePtr)
    (session : SessionPtr) : Except Fault (Option NodePtr × Memory) :=
  match head with
  -- if head is null
  | none => do
      let (p, mem) ← newNode calloc mem session
      pure (some p, mem)
  -- append to the end
  | some head => do
      let last ← lastNode mem fuel head
      let (p, mem) ← newNode calloc mem session
      let mem ← mem.setNext last (some p)
      pure (some head, mem)

/-- The loop of both searches: the first session of the list with the wanted key. -/
def searchList (mem : Memory) (found : TcpSession → Bool) :
    Nat → Option NodePtr → Except Fault (Option SessionPtr)
  | 0, _ => .error .running
  | _ + 1, none => pure none
  | fuel + 1, some head => do
      let node ← mem.node head
      let session ← mem.session node.value
      if found session then pure (some node.value) else searchList mem found fuel node.next

/-- `search_tcp_session_by_client`. -/
def searchTcpSessionByClient (fuel : Nat) (mem : Memory) (head : Option NodePtr)
    (clientIp : UInt32) (clientPort : UInt16) : Except Fault (Option SessionPtr) :=
  searchList mem (fun session =>
    decide (session.clientIp = clientIp ∧ session.clientPort = clientPort)) fuel head

/-- `search_tcp_session_by_server`. -/
def searchTcpSessionByServer (fuel : Nat) (mem : Memory) (head : Option NodePtr)
    (serverPort : UInt16) : Except Fault (Option SessionPtr) :=
  searchList mem (fun session => decide (session.serverPort = serverPort)) fuel head

/-- `session_expired`, which reads the clock once. -/
def sessionExpired (mem : Memory) (s : SessionPtr) : Except Fault (Bool × Memory) := do
  let session ← mem.session s
  pure (decide (mem.clock 0 - session.expire > 0), mem.tick)

/-- The loop of `delete_expired_session`; `current` is never `NULL` in it. -/
def deleteExpiredLoop : Nat → Memory → NodePtr → Except Fault Memory
  | 0, _, _ => .error .running
  | fuel + 1, mem, current => do
      let node ← mem.node current
      match node.next with
      | none => pure mem
      | some toBeDeleted => do
          let next ← mem.node toBeDeleted
          let (expired, mem) ← sessionExpired mem next.value
          if expired then
            -- the next node is unlinked, and the one behind it is judged from the same place
            let mem ← mem.setNext current next.next
            let mem ← mem.freeNode toBeDeleted
            deleteExpiredLoop fuel mem current
          else deleteExpiredLoop fuel mem toBeDeleted

/-- `delete_expired_session`; the list head it leaves in `*_head` is returned. -/
def deleteExpiredSession (fuel : Nat) (mem : Memory) (head : Option NodePtr) :
    Except Fault (Option NodePtr × Memory) :=
  match head with
  | none => pure (none, mem)
  | some head => do
      let mem ← deleteExpiredLoop fuel mem head
      -- check the head
      let node ← mem.node head
      let (expired, mem) ← sessionExpired mem node.value
      if expired then
        let mem ← mem.freeNode head
        pure (node.next, mem)
      else pure (some head, mem)

/-- `delete_all_session`. -/
def deleteAllSession : Nat → Memory → Option NodePtr → Bool → Except Fault Memory
  | 0, _, _, _ => .error .running
  | _ + 1, mem, none, _ => pure mem
  | fuel + 1, mem, some toBeDeleted, removeSession => do
      let node ← mem.node toBeDeleted
      let mem ← if removeSession then mem.freeSession node.value else pure mem
      let mem ← mem.freeNode toBeDeleted
      deleteAllSession fuel mem node.next removeSession

/-! ## The table -/

/-- `init_hash_table`, with its two arrays allocated. -/
def initHashTable (numEntry : Nat) (minPort maxPort : UInt16) : SessionHashTable where
  listClientKey := some fun _ => none
  listServerKey := some fun _ => none
  len := numEntry
  minPort := minPort
  modNum := maxPort - minPort + 1
  nextNum := 0

/-- The body of the loop of `delete_hash_table`. -/
def deleteBucket (fuel : Nat) (mem : Memory) (i : Nat) : Except Fault Memory := do
  let head ← headAt mem.table.listClientKey mem.table.len i
  let mem ← deleteAllSession fuel mem head false
  let head ← headAt mem.table.listServerKey mem.table.len i
  deleteAllSession fuel mem head true

/-- `delete_hash_table`. -/
def deleteHashTable (fuel : Nat) (mem : Memory) : Except Fault Memory := do
  let mem ← (List.range mem.table.len).foldlM (deleteBucket fuel) mem
  let _ ← access mem.table.listClientKey
  let _ ← access mem.table.listServerKey
  pure { mem with table := { mem.table with listClientKey := none, listServerKey := none } }

/-- The body of the loop of `clean_expired_session`. -/
def cleanBucket (fuel : Nat) (mem : Memory) (i : Nat) : Except Fault Memory := do
  let head ← headAt mem.table.listClientKey mem.table.len i
  let (head, mem) ← deleteExpiredSession fuel mem head
  let mem := mem.setClientHead i head
  let head ← headAt mem.table.listServerKey mem.table.len i
  let (head, mem) ← deleteExpiredSession fuel mem head
  pure (mem.setServerHead i head)

/-- `clean_expired_session`. -/
def cleanExpiredSession (fuel : Nat) (mem : Memory) : Except Fault Memory :=
  (List.range mem.table.len).foldlM (cleanBucket fuel) mem

/-- `get_tcp_session_by_client`. -/
def getTcpSessionByClient (fuel : Nat) (mem : Memory) (clientIp : UInt32) (clientPort : UInt16) :
    Except Fault (Option SessionPtr) := do
  let head ← headAt mem.table.listClientKey mem.table.len
    ((clientIp + clientPort.toUInt32).toNat % mem.table.len)
  searchTcpSessionByClient fuel mem head clientIp clientPort

/-- `get_tcp_session_by_server`. -/
def getTcpSessionByServer (fuel : Nat) (mem : Memory) (serverPort : UInt16) :
    Except Fault (Option SessionPtr) := do
  let head ← headAt mem.table.listServerKey mem.table.len (serverPort.toNat % mem.table.len)
  searchTcpSessionByServer fuel mem head serverPort

/-- The loop of `add_tcp_session`: the port found, or `none` when it gives up, and the new
`next_num`. -/
def searchPort (fuel : Nat) (mem : Memory) (count : Int) (nextNum : UInt32) :
    Except Fault (Option UInt16 × UInt32) := do
  let serverPort :=
    (nextNum % mem.table.modNum.toUInt32 + mem.table.minPort.toUInt32).toUInt16
  match ← getTcpSessionByServer fuel mem serverPort with
  | none => pure (some serverPort, nextNum + 1)
  | some _ =>
      if mem.table.modNum.toNat < incrementInt count then pure (none, nextNum + 1)
      else searchPort fuel mem (incrementInt count) (nextNum + 1)
termination_by probeLimit mem.table.modNum count
decreasing_by
  simp only [probeLimit, incrementInt] at *
  have := mem.table.modNum.toNat_lt
  split <;> split <;> omega

/-- `calloc` of a session object and the writes of its fields. -/
def allocateSession (calloc : Calloc) (mem : Memory) (clientIp : UInt32)
    (clientPort serverPort : UInt16) (timeout : Int) : Except Fault (SessionPtr × Memory) :=
  if calloc.session mem.brk then
    .ok (mem.brk, { mem.tick with
      sessions := Function.update mem.sessions mem.brk
        (some (newSession clientIp clientPort serverPort (mem.clock 0 + timeout)))
      brk := mem.brk + 1 })
  else .error .outOfMemory

/-- The end of `add_tcp_session`: a session object is allocated and inserted into both lists. -/
def createSession (calloc : Calloc) (fuel : Nat) (mem : Memory) (clientIp : UInt32)
    (clientPort serverPort : UInt16) (timeout : Int) : Except Fault (SessionPtr × Memory) := do
  let hashClient := (clientIp + clientPort.toUInt32).toNat % mem.table.len
  let hashServer := serverPort.toNat % mem.table.len
  let (session, mem) ← allocateSession calloc mem clientIp clientPort serverPort timeout
  let head ← headAt mem.table.listClientKey mem.table.len hashClient
  let (head, mem) ← insertTcpSession calloc fuel mem head session
  let mem := mem.setClientHead hashClient head
  let head ← headAt mem.table.listServerKey mem.table.len hashServer
  let (head, mem) ← insertTcpSession calloc fuel mem head session
  pure (session, mem.setServerHead hashServer head)

/-- `add_tcp_session`; `count` is the value its uninitialised local of that name holds. -/
def addTcpSession (calloc : Calloc) (fuel : Nat) (mem : Memory) (count : Int) (clientIp : UInt32)
    (clientPort : UInt16) (timeout : Int) : Except Fault (Option SessionPtr × Memory) := do
  match ← getTcpSessionByClient fuel mem clientIp clientPort with
  -- already exist, expired or not
  | some session => pure (some session, mem)
  | none => do
      match ← searchPort fuel mem count mem.table.nextNum with
      -- no available port
      | (none, nextNum) => pure (none, mem.setNextNum nextNum)
      | (some serverPort, nextNum) => do
          let (session, mem) ← createSession calloc fuel (mem.setNextNum nextNum) clientIp
            clientPort serverPort timeout
          pure (some session, mem)

/-- `print_session_linked_list`, which reads every session and the clock once for each. -/
def printSessionLinkedList : Nat → Memory → Option NodePtr → Except Fault Memory
  | 0, _, _ => .error .running
  | _ + 1, mem, none => pure mem
  | fuel + 1, mem, some head => do
      let node ← mem.node head
      let (_, mem) ← sessionExpired mem node.value
      printSessionLinkedList fuel mem node.next

/-- `print_session_hash_table`. -/
def printSessionHashTable (fuel : Nat) (mem : Memory) : Except Fault Memory :=
  (List.range mem.table.len).foldlM (fun mem i => do
    let head ← headAt mem.table.listClientKey mem.table.len i
    printSessionLinkedList fuel mem head) mem

/-! ## The handlers -/

/-- The session `handle_client_packet` works on. -/
def clientSession (calloc : Calloc) (fuel : Nat) (mem : Memory) (count : Int) (seg : Segment) :
    Except Fault (Option SessionPtr × Memory) :=
  if seg.syn then addTcpSession calloc fuel mem count seg.saddr seg.source 10
  else do
    let session ← getTcpSessionByClient fuel mem seg.saddr seg.source
    pure (session, mem)

/-- What both handlers do with the session found: judge it, and update its flags if it is live. -/
def useSession (mem : Memory) (flags : TcpSession → TcpSession) :
    Option SessionPtr → Except Fault (Option SessionPtr × Memory)
  | none => pure (none, mem)
  | some session => do
      let (expired, mem) ← sessionExpired mem session
      if expired then pure (none, mem)
      else do
        let mem ← mem.updateSession session flags
        pure (some session, mem)

/-- The part of `handle_client_packet` between validation and rewriting. -/
def acceptClient (calloc : Calloc) (fuel : Nat) (mem : Memory) (count : Int) (seg : Segment) :
    Except Fault (Option SessionPtr × Memory) := do
  let (session, mem) ← clientSession calloc fuel mem count seg
  useSession mem (fun v => clientFlags v seg) session

/-- The part of `handle_world_packet` between validation and rewriting. -/
def acceptWorld (fuel : Nat) (mem : Memory) (seg : Segment) :
    Except Fault (Option SessionPtr × Memory) := do
  let session ← getTcpSessionByServer fuel mem seg.dest
  useSession mem (fun v => worldFlags v seg) session

/-- What a handler returns and leaves in the buffer, and what it stores through `rst_size` and
`client_ip`. -/
structure Answer where
  ret : Verdict
  buffer : Buffer
  rstSize : Option Nat
  clientIp : Option UInt32

/-- The rejection both handlers share. -/
def rejection (b : Buffer) : Answer where
  ret := .invalidSession
  buffer := (fillinReset b).1
  rstSize := some (fillinReset b).2
  clientIp := none

/-- `handle_client_packet`. -/
def handleClientPacket (calloc : Calloc) (fuel : Nat) (mem : Memory) (count : Int) (b : Buffer)
    (bufferLen : Int) (vpnServerIp : UInt32) : Except Fault (Answer × Memory) :=
  match validateIpTcp b bufferLen with
  | none => pure (rejection b, mem)
  | some tcp => do
      let (found, mem) ← acceptClient calloc fuel mem count (segmentAt b tcp)
      match found with
      | none => pure (rejection b, mem)
      | some s => do
          let session ← mem.session s
          pure ({ ret := .validSession
                  buffer := replaceSrcIpPort b vpnServerIp session.serverPort
                  rstSize := none
                  clientIp := none }, mem)

/-- `handle_world_packet`. -/
def handleWorldPacket (fuel : Nat) (mem : Memory) (b : Buffer) (bufferLen : Int) :
    Except Fault (Answer × Memory) :=
  match validateIpTcp b bufferLen with
  | none => pure (rejection b, mem)
  | some tcp => do
      let (found, mem) ← acceptWorld fuel mem (segmentAt b tcp)
      match found with
      | none => pure (rejection b, mem)
      | some s => do
          let session ← mem.session s
          pure ({ ret := .validSession
                  buffer := replaceDstIpPort b session.clientIp session.clientPort
                  rstSize := none
                  clientIp := some session.clientIp }, mem)

/-! ## Operations -/

/-- What the programs do with a table: the calls, and printing it. -/
inductive Operation where
  | call (c : Call)
  | print

/-- What the caller of a function gets back. -/
inductive Response where
  | session (s : Option SessionPtr)
  | answer (a : Answer)
  | nothing

/-- An operation, with its response. -/
def perform (calloc : Calloc) (fuel : Nat) (mem : Memory) :
    Operation → Except Fault (Response × Memory)
  | .call (.add count clientIp clientPort timeout) => do
      let (s, mem) ← addTcpSession calloc fuel mem count clientIp clientPort timeout
      pure (.session s, mem)
  | .call (.client count b bufferLen vpnServerIp) => do
      let (a, mem) ← handleClientPacket calloc fuel mem count b bufferLen vpnServerIp
      pure (.answer a, mem)
  | .call (.world b bufferLen) => do
      let (a, mem) ← handleWorldPacket fuel mem b bufferLen
      pure (.answer a, mem)
  | .call .clean => do
      let mem ← cleanExpiredSession fuel mem
      pure (.nothing, mem)
  | .print => do
      let mem ← printSessionHashTable fuel mem
      pure (.nothing, mem)

/-- The operations of a run one after the other, with their responses. -/
def run (calloc : Calloc) (fuel : Nat) :
    Memory → List Operation → Except Fault (List Response × Memory)
  | mem, [] => pure ([], mem)
  | mem, op :: ops => do
      let (r, mem) ← perform calloc fuel mem op
      let (rs, mem) ← run calloc fuel mem ops
      pure (r :: rs, mem)

/-! ## The operations on lists -/

/-- What a handler of `Model.PacketHandler` returns. -/
def answerOf (h : Handled) : Answer where
  ret := h.ret
  buffer := h.buffer
  rstSize := h.rstSize
  clientIp := h.clientIp

/-- The machine after an operation. -/
def performOn (m : Machine) : Operation → Machine
  | .call c => BenkerVpn.perform m c
  | .print => BenkerVpn.printSessionHashTable m

/-- The response to an operation of the table whose lists are lists. -/
def respondOn (m : Machine) : Operation → Response
  | .call (.add count clientIp clientPort timeout) =>
      .session (BenkerVpn.addTcpSession m count clientIp clientPort timeout).1
  | .call (.client count b bufferLen vpnServerIp) =>
      .answer (answerOf (BenkerVpn.handleClientPacket m count b bufferLen vpnServerIp))
  | .call (.world b bufferLen) =>
      .answer (answerOf (BenkerVpn.handleWorldPacket m b bufferLen))
  | .call .clean => .nothing
  | .print => .nothing

/-- The responses of a run. -/
def respondAll : Machine → List Operation → List Response
  | _, [] => []
  | m, op :: ops => respondOn m op :: respondAll (performOn m op) ops

end BenkerVpn.Pointers
