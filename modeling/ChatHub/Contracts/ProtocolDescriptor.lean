/-
# `ChatHub.Contracts.ProtocolDescriptor` — the registry of frame types

`protocol_descriptor.hpp`: the 54 frame types of the wire protocol and the
read-only table that says of each who sends it, in which connection states it
is allowed, how long its body may be and what answers it.

`ProtocolType` is an enumeration over a fixed underlying byte, and the code
casts any byte of the wire to it before looking it up.  So it is a byte here,
with the registered values named; a byte outside the table is a `ProtocolType`
that `findProtocol` does not find.
-/
import Mathlib.Data.List.Basic

namespace ChatHub.Contracts

/-- A frame type: any byte, registered or not. -/
structure ProtocolType where
  byte : UInt8
  deriving DecidableEq, Repr

namespace ProtocolType

def protocolError : ProtocolType := ⟨0x01⟩
def heartbeat : ProtocolType := ⟨0x02⟩
def helloRequest : ProtocolType := ⟨0x04⟩
def helloResponse : ProtocolType := ⟨0x05⟩
def registerPrepareRequest : ProtocolType := ⟨0x10⟩
def registerPrepareResponse : ProtocolType := ⟨0x11⟩
def registerFinalizeRequest : ProtocolType := ⟨0x12⟩
def registerFinalizeResponse : ProtocolType := ⟨0x13⟩
def loginRequest : ProtocolType := ⟨0x14⟩
def loginResponse : ProtocolType := ⟨0x15⟩
def sessionResumeRequest : ProtocolType := ⟨0x16⟩
def sessionResumeResponse : ProtocolType := ⟨0x17⟩
def passwordResetRequest : ProtocolType := ⟨0x18⟩
def passwordResetResponse : ProtocolType := ⟨0x19⟩
def logoutRequest : ProtocolType := ⟨0x1A⟩
def logoutResponse : ProtocolType := ⟨0x1B⟩
def profileUpdateRequest : ProtocolType := ⟨0x1C⟩
def profileUpdateResponse : ProtocolType := ⟨0x1D⟩
def userLookupRequest : ProtocolType := ⟨0x30⟩
def userLookupResponse : ProtocolType := ⟨0x31⟩
def friendRequestCreateRequest : ProtocolType := ⟨0x32⟩
def friendRequestCreateResponse : ProtocolType := ⟨0x33⟩
def friendRequestListRequest : ProtocolType := ⟨0x34⟩
def friendRequestListResponse : ProtocolType := ⟨0x35⟩
def friendRequestAcceptRequest : ProtocolType := ⟨0x36⟩
def friendRequestAcceptResponse : ProtocolType := ⟨0x37⟩
def friendRequestRejectRequest : ProtocolType := ⟨0x38⟩
def friendRequestRejectResponse : ProtocolType := ⟨0x39⟩
def friendRequestWithdrawRequest : ProtocolType := ⟨0x3A⟩
def friendRequestWithdrawResponse : ProtocolType := ⟨0x3B⟩
def friendDeleteRequest : ProtocolType := ⟨0x3C⟩
def friendDeleteResponse : ProtocolType := ⟨0x3D⟩
def contactListRequest : ProtocolType := ⟨0x3E⟩
def contactListResponse : ProtocolType := ⟨0x3F⟩
def messageSendRequest : ProtocolType := ⟨0x50⟩
def messageSendResponse : ProtocolType := ⟨0x51⟩
def deliveryProgressRequest : ProtocolType := ⟨0x52⟩
def deliveryProgressResponse : ProtocolType := ⟨0x53⟩
def conversationListRequest : ProtocolType := ⟨0x54⟩
def conversationListResponse : ProtocolType := ⟨0x55⟩
def conversationHistoryRequest : ProtocolType := ⟨0x56⟩
def conversationHistoryResponse : ProtocolType := ⟨0x57⟩
def conversationReadRequest : ProtocolType := ⟨0x58⟩
def conversationReadResponse : ProtocolType := ⟨0x59⟩
def conversationClearRequest : ProtocolType := ⟨0x5A⟩
def conversationClearResponse : ProtocolType := ⟨0x5B⟩
def sessionTerminatedPush : ProtocolType := ⟨0x80⟩
def profileUpdatedPush : ProtocolType := ⟨0x81⟩
def friendRequestReceivedPush : ProtocolType := ⟨0x82⟩
def friendshipChangedPush : ProtocolType := ⟨0x83⟩
def friendRequestChangedPush : ProtocolType := ⟨0x84⟩
def conversationEventPush : ProtocolType := ⟨0x85⟩
def messageReceivedPush : ProtocolType := ⟨0x86⟩
def deliverySyncCompletePush : ProtocolType := ⟨0x87⟩

end ProtocolType

/-- Who sends a frame type, and whether an answer is due. -/
inductive Direction where
  | request
  | response
  | push
  | bidirectional
  deriving DecidableEq, Repr

/-- The states of a connection in which frames are received. -/
inductive ConnectionState where
  | awaitingHello
  | unauthenticated
  | authenticated
  deriving DecidableEq, Repr

/-- The position of a state in the enumeration, as `static_cast` reads it. -/
def ConnectionState.ordinal : ConnectionState → UInt8
  | .awaitingHello => 0
  | .unauthenticated => 1
  | .authenticated => 2

/-- A set of connection states, as a bit mask. -/
structure ConnectionStates where
  bits : UInt8
  deriving DecidableEq, Repr

namespace ConnectionStates

def none : ConnectionStates := ⟨0⟩
def awaitingHello : ConnectionStates := ⟨(1 : UInt8) <<< 0⟩
def unauthenticated : ConnectionStates := ⟨(1 : UInt8) <<< 1⟩
def authenticated : ConnectionStates := ⟨(1 : UInt8) <<< 2⟩

/-- `operator|`. -/
def union (a b : ConnectionStates) : ConnectionStates := ⟨a.bits ||| b.bits⟩

def all : ConnectionStates := (awaitingHello.union unauthenticated).union authenticated

end ConnectionStates

/-- Is `state` in the mask?  The state is an ordinal, so it is shifted first. -/
def hasState (states : ConnectionStates) (state : ConnectionState) : Bool :=
  (states.bits &&& (1 <<< state.ordinal)) != 0

/-- What the registry says of one frame type. -/
structure ProtocolDescriptor where
  type : ProtocolType
  name : String
  direction : Direction
  allowedStates : ConnectionStates
  capability : String
  maxBody : UInt32
  defaultTimeoutMs : UInt16
  response : Option ProtocolType
  deriving DecidableEq, Repr

/-- The limit of a JSON body, in bytes. -/
def kMaxJsonBody : UInt32 := 65536

/-- The registry. -/
def kProtocolDescriptors : List ProtocolDescriptor := [
  ⟨.protocolError, "protocol_error", .push,
    .all, "", kMaxJsonBody, 0, none⟩,
  ⟨.heartbeat, "heartbeat", .bidirectional,
    ConnectionStates.unauthenticated.union .authenticated, "", 0, 0, none⟩,
  ⟨.helloRequest, "hello_request", .request,
    .awaitingHello, "", kMaxJsonBody, 5000, some .helloResponse⟩,
  ⟨.helloResponse, "hello_response", .response,
    .awaitingHello, "", kMaxJsonBody, 0, none⟩,
  ⟨.registerPrepareRequest, "register_prepare_request", .request,
    .unauthenticated, "", kMaxJsonBody, 10000, some .registerPrepareResponse⟩,
  ⟨.registerPrepareResponse, "register_prepare_response", .response,
    .unauthenticated, "", kMaxJsonBody, 0, none⟩,
  ⟨.registerFinalizeRequest, "register_finalize_request", .request,
    .unauthenticated, "", kMaxJsonBody, 10000, some .registerFinalizeResponse⟩,
  ⟨.registerFinalizeResponse, "register_finalize_response", .response,
    .unauthenticated, "", kMaxJsonBody, 0, none⟩,
  ⟨.loginRequest, "login_request", .request,
    .unauthenticated, "", kMaxJsonBody, 10000, some .loginResponse⟩,
  ⟨.loginResponse, "login_response", .response,
    .unauthenticated, "", kMaxJsonBody, 0, none⟩,
  ⟨.sessionResumeRequest, "session_resume_request", .request,
    .unauthenticated, "", kMaxJsonBody, 10000, some .sessionResumeResponse⟩,
  ⟨.sessionResumeResponse, "session_resume_response", .response,
    .unauthenticated, "", kMaxJsonBody, 0, none⟩,
  ⟨.passwordResetRequest, "password_reset_request", .request,
    .unauthenticated, "", kMaxJsonBody, 10000, some .passwordResetResponse⟩,
  ⟨.passwordResetResponse, "password_reset_response", .response,
    .unauthenticated, "", kMaxJsonBody, 0, none⟩,
  ⟨.logoutRequest, "logout_request", .request,
    .authenticated, "", kMaxJsonBody, 2000, some .logoutResponse⟩,
  ⟨.logoutResponse, "logout_response", .response,
    .authenticated, "", kMaxJsonBody, 0, none⟩,
  ⟨.profileUpdateRequest, "profile_update_request", .request,
    .authenticated, "", kMaxJsonBody, 5000, some .profileUpdateResponse⟩,
  ⟨.profileUpdateResponse, "profile_update_response", .response,
    .authenticated, "", kMaxJsonBody, 0, none⟩,
  ⟨.userLookupRequest, "user_lookup_request", .request,
    .authenticated, "", kMaxJsonBody, 5000, some .userLookupResponse⟩,
  ⟨.userLookupResponse, "user_lookup_response", .response,
    .authenticated, "", kMaxJsonBody, 0, none⟩,
  ⟨.friendRequestCreateRequest, "friend_request_create_request", .request,
    .authenticated, "", kMaxJsonBody, 5000, some .friendRequestCreateResponse⟩,
  ⟨.friendRequestCreateResponse, "friend_request_create_response", .response,
    .authenticated, "", kMaxJsonBody, 0, none⟩,
  ⟨.friendRequestListRequest, "friend_request_list_request", .request,
    .authenticated, "", kMaxJsonBody, 10000, some .friendRequestListResponse⟩,
  ⟨.friendRequestListResponse, "friend_request_list_response", .response,
    .authenticated, "", kMaxJsonBody, 0, none⟩,
  ⟨.friendRequestAcceptRequest, "friend_request_accept_request", .request,
    .authenticated, "", kMaxJsonBody, 5000, some .friendRequestAcceptResponse⟩,
  ⟨.friendRequestAcceptResponse, "friend_request_accept_response", .response,
    .authenticated, "", kMaxJsonBody, 0, none⟩,
  ⟨.friendRequestRejectRequest, "friend_request_reject_request", .request,
    .authenticated, "", kMaxJsonBody, 5000, some .friendRequestRejectResponse⟩,
  ⟨.friendRequestRejectResponse, "friend_request_reject_response", .response,
    .authenticated, "", kMaxJsonBody, 0, none⟩,
  ⟨.friendRequestWithdrawRequest, "friend_request_withdraw_request", .request,
    .authenticated, "", kMaxJsonBody, 5000, some .friendRequestWithdrawResponse⟩,
  ⟨.friendRequestWithdrawResponse, "friend_request_withdraw_response", .response,
    .authenticated, "", kMaxJsonBody, 0, none⟩,
  ⟨.friendDeleteRequest, "friend_delete_request", .request,
    .authenticated, "", kMaxJsonBody, 5000, some .friendDeleteResponse⟩,
  ⟨.friendDeleteResponse, "friend_delete_response", .response,
    .authenticated, "", kMaxJsonBody, 0, none⟩,
  ⟨.contactListRequest, "contact_list_request", .request,
    .authenticated, "", kMaxJsonBody, 10000, some .contactListResponse⟩,
  ⟨.contactListResponse, "contact_list_response", .response,
    .authenticated, "", kMaxJsonBody, 0, none⟩,
  ⟨.messageSendRequest, "message_send_request", .request,
    .authenticated, "text_v1", kMaxJsonBody, 5000, some .messageSendResponse⟩,
  ⟨.messageSendResponse, "message_send_response", .response,
    .authenticated, "text_v1", kMaxJsonBody, 0, none⟩,
  ⟨.deliveryProgressRequest, "delivery_progress_request", .request,
    .authenticated, "", kMaxJsonBody, 5000, some .deliveryProgressResponse⟩,
  ⟨.deliveryProgressResponse, "delivery_progress_response", .response,
    .authenticated, "", kMaxJsonBody, 0, none⟩,
  ⟨.conversationListRequest, "conversation_list_request", .request,
    .authenticated, "", kMaxJsonBody, 10000, some .conversationListResponse⟩,
  ⟨.conversationListResponse, "conversation_list_response", .response,
    .authenticated, "", kMaxJsonBody, 0, none⟩,
  ⟨.conversationHistoryRequest, "conversation_history_request", .request,
    .authenticated, "", kMaxJsonBody, 10000, some .conversationHistoryResponse⟩,
  ⟨.conversationHistoryResponse, "conversation_history_response", .response,
    .authenticated, "", kMaxJsonBody, 0, none⟩,
  ⟨.conversationReadRequest, "conversation_read_request", .request,
    .authenticated, "", kMaxJsonBody, 5000, some .conversationReadResponse⟩,
  ⟨.conversationReadResponse, "conversation_read_response", .response,
    .authenticated, "", kMaxJsonBody, 0, none⟩,
  ⟨.conversationClearRequest, "conversation_clear_request", .request,
    .authenticated, "", kMaxJsonBody, 5000, some .conversationClearResponse⟩,
  ⟨.conversationClearResponse, "conversation_clear_response", .response,
    .authenticated, "", kMaxJsonBody, 0, none⟩,
  ⟨.sessionTerminatedPush, "session_terminated_push", .push,
    .authenticated, "", kMaxJsonBody, 0, none⟩,
  ⟨.profileUpdatedPush, "profile_updated_push", .push,
    .authenticated, "", kMaxJsonBody, 0, none⟩,
  ⟨.friendRequestReceivedPush, "friend_request_received_push", .push,
    .authenticated, "", kMaxJsonBody, 0, none⟩,
  ⟨.friendshipChangedPush, "friendship_changed_push", .push,
    .authenticated, "", kMaxJsonBody, 0, none⟩,
  ⟨.friendRequestChangedPush, "friend_request_changed_push", .push,
    .authenticated, "", kMaxJsonBody, 0, none⟩,
  ⟨.conversationEventPush, "conversation_event_push", .push,
    .authenticated, "", kMaxJsonBody, 0, none⟩,
  ⟨.messageReceivedPush, "message_received_push", .push,
    .authenticated, "text_v1", kMaxJsonBody, 0, none⟩,
  ⟨.deliverySyncCompletePush, "delivery_sync_complete_push", .push,
    .authenticated, "", kMaxJsonBody, 0, none⟩]

/-- The registry entry of a type, the first one if there were several. -/
def findProtocol (type : ProtocolType) : Option ProtocolDescriptor :=
  kProtocolDescriptors.find? (fun descriptor => decide (descriptor.type = type))

/-! ## What a lookup gives -/

/-- No entry allows a body over the global limit. -/
theorem maxBody_le_of_mem : ∀ d ∈ kProtocolDescriptors, d.maxBody ≤ kMaxJsonBody := by
  decide

/-- What is found is the entry of the type that was looked up. -/
theorem type_of_findProtocol {type : ProtocolType} {d : ProtocolDescriptor}
    (h : findProtocol type = some d) : d.type = type := by
  have := List.find?_some h
  simpa using this

theorem maxBody_le_of_findProtocol {type : ProtocolType} {d : ProtocolDescriptor}
    (h : findProtocol type = some d) : d.maxBody.toNat ≤ 65536 :=
  UInt32.le_iff_toNat_le.mp (maxBody_le_of_mem d (List.mem_of_find?_eq_some h))

end ChatHub.Contracts
