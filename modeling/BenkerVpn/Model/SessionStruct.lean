import Mathlib.Logic.Function.Basic
import Mathlib.Tactic.Common

/-!
# The session table

Model of `lib/session_struct.h` and `lib/session_struct.c`. Session objects live in a heap and are
shared by pointer between the two bucket arrays of the table, so a handler that writes a session
through one index is seen through the other. A linked list is the list of the pointers its nodes
hold, in order; `NULL` is `none`.

`time(NULL)` reads the clock of the machine: `clock k` is what the `k`-th call from now on returns.
A `time_t` is a number of seconds, an `Int` here; `difftime(now, expire) > 0.0` compares two of
them.
-/

set_option autoImplicit false

namespace BenkerVpn

/-- Address of a session object. -/
abbrev SessionPtr := Nat

/-- `struct tcp_session`. -/
structure TcpSession where
  clientIp : UInt32
  clientPort : UInt16
  serverPort : UInt16
  -- the number of the last `SYN` or `FIN` of each side, acknowledged by anything larger
  clientLastStateSeq : UInt32
  serverLastStateSeq : UInt32
  -- `2` after the world's `SYN+ACK`, `3` after the client's `ACK`
  synState : UInt8
  -- `1` after a `FIN` of the world, `2` after its acknowledgement by the client
  clientFinState : UInt8
  -- `1` after a `FIN` of the client, `2` after its acknowledgement by the world
  serverFinState : UInt8
  expire : Int
  deriving DecidableEq, Repr

/-- `struct session_hash_table`: two arrays of linked lists over the same session objects. -/
structure SessionHashTable where
  listClientKey : Nat → List SessionPtr
  listServerKey : Nat → List SessionPtr
  len : Nat
  minPort : UInt16
  modNum : UInt16
  nextNum : UInt32

/-- What the session functions read and write: the heap of session objects, the address the next
`calloc` returns, the table, and the readings of the clock still to come. -/
structure Machine where
  heap : SessionPtr → TcpSession
  brk : SessionPtr
  table : SessionHashTable
  clock : Nat → Int

namespace Machine

/-- The machine after `n` calls of `time(NULL)`. -/
def tick (m : Machine) (n : Nat) : Machine := { m with clock := fun k => m.clock (n + k) }

/-- The machine after a write of a session object. -/
def store (m : Machine) (s : SessionPtr) (v : TcpSession) : Machine :=
  { m with heap := Function.update m.heap s v }

/-- The machine after a write of `next_num`. -/
def setNextNum (m : Machine) (n : UInt32) : Machine :=
  { m with table := { m.table with nextNum := n } }

end Machine

/-! ## Linked lists -/

/-- `session_expired` against a reading of the clock. -/
def expiredAt (heap : SessionPtr → TcpSession) (now : Int) (s : SessionPtr) : Bool :=
  decide (now - (heap s).expire > 0)

/-- `insert_tcp_session`: the session goes to the end of the list. -/
def insertTcpSession : List SessionPtr → SessionPtr → List SessionPtr
  | [], session => [session]
  | head :: next, session => head :: insertTcpSession next session

/-- `search_tcp_session_by_client`. -/
def searchTcpSessionByClient (heap : SessionPtr → TcpSession) :
    List SessionPtr → UInt32 → UInt16 → Option SessionPtr
  | [], _, _ => none
  | head :: next, clientIp, clientPort =>
      if (heap head).clientIp = clientIp ∧ (heap head).clientPort = clientPort then some head
      else searchTcpSessionByClient heap next clientIp clientPort

/-- `search_tcp_session_by_server`. -/
def searchTcpSessionByServer (heap : SessionPtr → TcpSession) :
    List SessionPtr → UInt16 → Option SessionPtr
  | [], _ => none
  | head :: next, serverPort =>
      if (heap head).serverPort = serverPort then some head
      else searchTcpSessionByServer heap next serverPort

/-- The loop of `delete_expired_session` over the nodes behind the head: each node is judged by a
fresh reading of the clock and unlinked or passed. -/
def deleteExpiredBehind (heap : SessionPtr → TcpSession) (clock : Nat → Int) :
    List SessionPtr → List SessionPtr
  | [] => []
  | node :: next =>
      if expiredAt heap (clock 0) node then
        deleteExpiredBehind heap (fun k => clock (k + 1)) next
      else node :: deleteExpiredBehind heap (fun k => clock (k + 1)) next

/-- `delete_expired_session`: the nodes behind the head in order, then the head itself. One reading
of the clock is taken for each node of the list. -/
def deleteExpiredSession (heap : SessionPtr → TcpSession) (clock : Nat → Int) :
    List SessionPtr → List SessionPtr
  | [] => []
  | head :: next =>
      -- every node behind the head has taken a reading when the head is judged
      let next' := deleteExpiredBehind heap clock next
      if expiredAt heap (clock next.length) head then next' else head :: next'

/-! ## The table -/

/-- `init_hash_table`. The range size is computed in `int` and stored in 16 bits, which is
arithmetic modulo `2 ^ 16`. -/
def initHashTable (numEntry : Nat) (minPort maxPort : UInt16) : SessionHashTable where
  listClientKey := fun _ => []
  listServerKey := fun _ => []
  len := numEntry
  minPort := minPort
  modNum := maxPort - minPort + 1
  nextNum := 0

namespace SessionHashTable

/-- Bucket of a client key: the sum wraps in 32 bits before the reduction. -/
def clientBucket (t : SessionHashTable) (clientIp : UInt32) (clientPort : UInt16) : Nat :=
  (clientIp + clientPort.toUInt32).toNat % t.len

/-- Bucket of a server port. -/
def serverBucket (t : SessionHashTable) (serverPort : UInt16) : Nat :=
  serverPort.toNat % t.len

/-- The port probed for a value of `next_num`: computed in 32 bits, stored in 16. -/
def probedPort (t : SessionHashTable) (nextNum : UInt32) : UInt16 :=
  (nextNum % t.modNum.toUInt32 + t.minPort.toUInt32).toUInt16

end SessionHashTable

/-- `get_tcp_session_by_client`. -/
def getTcpSessionByClient (m : Machine) (clientIp : UInt32) (clientPort : UInt16) :
    Option SessionPtr :=
  searchTcpSessionByClient m.heap
    (m.table.listClientKey (m.table.clientBucket clientIp clientPort)) clientIp clientPort

/-- `get_tcp_session_by_server`. -/
def getTcpSessionByServer (m : Machine) (serverPort : UInt16) : Option SessionPtr :=
  searchTcpSessionByServer m.heap (m.table.listServerKey (m.table.serverBucket serverPort))
    serverPort

/-- One round of the loop of `clean_expired_session`: bucket `i` of the client index, then bucket
`i` of the server index. -/
def cleanBucket (m : Machine) (i : Nat) : Machine :=
  let clientList := m.table.listClientKey i
  let serverList := m.table.listServerKey i
  let clientList' := deleteExpiredSession m.heap m.clock clientList
  -- the server list is judged by the readings behind those of the client list
  let serverList' :=
    deleteExpiredSession m.heap (fun k => m.clock (clientList.length + k)) serverList
  { m.tick (clientList.length + serverList.length) with
    table := { m.table with
      listClientKey := Function.update m.table.listClientKey i clientList'
      listServerKey := Function.update m.table.listServerKey i serverList' } }

/-- `clean_expired_session`. -/
def cleanExpiredSession (m : Machine) : Machine :=
  (List.range m.table.len).foldl cleanBucket m

/-- `++count` on a 32-bit `int`. -/
def incrementInt (count : Int) : Int := if count = 2147483647 then -2147483648 else count + 1

/-- The number of probes after which the loop of `add_tcp_session` gives up, for the value its
uninitialised `count` starts with. -/
def probeLimit (modNum : UInt16) (count : Int) : Nat :=
  if count = 2147483647 then modNum.toNat + 2147483650
  else (modNum.toNat - count).toNat + 1

/-- The loop of `add_tcp_session`: the port found, or `none` when it gives up, and the new
`next_num`. -/
def searchPort (m : Machine) (count : Int) (nextNum : UInt32) : Option UInt16 × UInt32 :=
  let serverPort := m.table.probedPort nextNum
  match getTcpSessionByServer m serverPort with
  | none => (some serverPort, nextNum + 1)
  | some _ =>
      -- the port is held: count it, and give up after too many
      if m.table.modNum.toNat < incrementInt count then (none, nextNum + 1)
      else searchPort m (incrementInt count) (nextNum + 1)
termination_by probeLimit m.table.modNum count
decreasing_by
  simp only [probeLimit, incrementInt] at *
  have := m.table.modNum.toNat_lt
  split <;> split <;> omega

/-- The new session of `add_tcp_session`: zeroed by `calloc`, then its key, port and expiry. -/
def newSession (clientIp : UInt32) (clientPort serverPort : UInt16) (expire : Int) :
    TcpSession where
  clientIp := clientIp
  clientPort := clientPort
  serverPort := serverPort
  clientLastStateSeq := 0
  serverLastStateSeq := 0
  synState := 0
  clientFinState := 0
  serverFinState := 0
  expire := expire

/-- The end of `add_tcp_session`: a session object is allocated and inserted into both indexes. -/
def createSession (m : Machine) (clientIp : UInt32) (clientPort serverPort : UInt16)
    (timeout : Int) : Machine :=
  let session := newSession clientIp clientPort serverPort (m.clock 0 + timeout)
  let hashClient := m.table.clientBucket clientIp clientPort
  let hashServer := m.table.serverBucket serverPort
  { m.tick 1 with
    heap := Function.update m.heap m.brk session
    brk := m.brk + 1
    table := { m.table with
      listClientKey := Function.update m.table.listClientKey hashClient
        (insertTcpSession (m.table.listClientKey hashClient) m.brk)
      listServerKey := Function.update m.table.listServerKey hashServer
        (insertTcpSession (m.table.listServerKey hashServer) m.brk) } }

/-- `add_tcp_session`; `count` is the value its uninitialised local of that name holds. -/
def addTcpSession (m : Machine) (count : Int) (clientIp : UInt32) (clientPort : UInt16)
    (timeout : Int) : Option SessionPtr × Machine :=
  match getTcpSessionByClient m clientIp clientPort with
  -- already exist, expired or not
  | some session => (some session, m)
  | none =>
      match searchPort m count m.table.nextNum with
      -- no available port
      | (none, nextNum) => (none, m.setNextNum nextNum)
      | (some serverPort, nextNum) =>
          (some m.brk,
            createSession (m.setNextNum nextNum) clientIp clientPort serverPort timeout)

/-- `session_expired`, which reads the clock once. -/
def sessionExpired (m : Machine) (session : SessionPtr) : Bool × Machine :=
  (expiredAt m.heap (m.clock 0) session, m.tick 1)

end BenkerVpn
