import Mathlib.Data.List.Forall2
import RagProject.Lib.Fallible
import RagProject.Mcp.Server

/-! run_stdio (mcp/server.py): when every line of the input gets the answer that it is to have. -/
namespace RagProject.Mcp
open Json

section Answers

/-- A response with an id. -/
def IsResponse (id response : Json) : Prop :=
  ∃ field body, response = .dict [(chars "jsonrpc", .str (chars "2.0")), (chars "id", id),
    (field, body)] ∧ (field = chars "result" ∨ field = chars "error")

def IsError (id response : Json) : Prop :=
  ∃ error, response = .dict [(chars "jsonrpc", .str (chars "2.0")), (chars "id", id),
    (chars "error", error)]

/-- The message names a method of JSON-RPC 2.0. -/
def IsCall (message : Entries) : Prop :=
  get message "jsonrpc" = some (.str (chars "2.0")) ∧ ∃ method, get message "method" = some (.str method)

/-- The message has an id that is valid and safe. -/
def HasId (message : Entries) (id : Json) : Prop :=
  get message "id" = some id ∧ isValidRequestId id = true ∧ isSafeRequestId id = true

/-- The response that an object is to have. -/
structure Responds (message : Entries) (response : Option Json) : Prop where
  request : ∀ id, HasId message id → ∃ r, response = some r ∧ IsResponse id r
  notification : get message "id" = none → IsCall message → response = none
  other : ¬(IsCall message ∧ (get message "id" = none ∨ ∃ id, HasId message id)) →
    ∃ r id, response = some r ∧ IsError id r

/-- The response that a member of a batch is to have. -/
def MemberAnswer : Json → Option Json → Prop
  | .dict message, response => Responds message response
  | _, response => ∃ r, response = some r ∧ IsError .null r

/-- What a line is to write, whatever is asked of a blank one. -/
def LineAnswer (blank : List Json → Prop) (codec : JsonCodec) (line : Text)
    (written : List Json) : Prop :=
  if strip line = [] then blank written
  else
    match codec.loads (strip line) with
    | .value (.dict message) => ∃ response, Responds message response ∧ written = response.toList
    | .value (.list (item :: items)) =>
      ∃ responses, List.Forall₂ MemberAnswer (item :: items) responses ∧
        written = if responses.reduceOption = [] then [] else [.list responses.reduceOption]
    | _ => ∃ r, IsError .null r ∧ written = [r]

end Answers

section Plain
variable (server : JsonRpcMcpServer)

/-- The texts of a failure that go into a response can be encoded. -/
def McpFailure.plain : McpFailure → Bool
  | .methodNotFound _ | .exception => true
  | .invalidRequest message | .notFound message => encodes message
  | .toolExecution message code | .mcpError message code => encodes message && encodes code

def outcomePlain : Except McpFailure Json → Bool
  | .ok v => v.plain
  | .error failure => failure.plain

/-- What a tool answers can be encoded, or is no answer: only a dict has a status. -/
def toolPlain (calls : List Call) (name : Text) (arguments : Json) : Bool :=
  match server.tools.find? (·.name = name), arguments with
  | some tool, .dict parsedArguments =>
    match server.adapter calls tool.handler parsedArguments with
    | .ok (.dict entries) => entriesPlain entries
    | .ok v => name ∈ askTools.map chars || v.plain
    | .error failure => failure.plain
  | _, _ => true

/-- What the methods of the adapter, and the question of a prompt, give for a call. -/
def givenPlain (calls : List Call) (method : Text) (params : Entries) : Bool :=
  if method = chars "tools/call" then
    match get params "name" with
    | some (.str name) => toolPlain server calls name ((get params "arguments").getD (.dict []))
    | _ => true
  else if method = chars "resources/read" then
    match get params "uri" with
    | some (.str uri) => outcomePlain (readData server calls uri)
    | _ => true
  else if method = chars "prompts/get" then
    match get params "name", get params "arguments" with
    | some (.str name), some (.dict arguments) =>
      !prompts.any (fun prompt => chars prompt.name = name) ||
        encodes (promptQuestion server arguments)
    | _, _ => true
  else true

/-- The params of a message, where none are given as an empty object. -/
def paramsOf (message : Entries) : Option Entries :=
  match get message "params" with
  | none | some .null => some []
  | some (.dict params) => some params
  | some _ => none

/-- The message is no request that is let through, or what is given for it can be encoded. -/
def messagePlain (state : State) (message : Entries) : Bool :=
  match get message "id", get message "jsonrpc", get message "method", paramsOf message with
  | some id, some (.str version), some (.str method), some params =>
    !(isValidRequestId id && isSafeRequestId id && version == chars "2.0") ||
      !((validateMcpSettings server.settings).isOk && server.settings.enabled) ||
      givenPlain server state.calls method params
  | _, _, _, _ => true

def batchPlain (state : State) : List Json → Bool
  | [] => true
  | .dict message :: rest =>
    messagePlain server state message && batchPlain (handleMessage server state message).2 rest
  | _ :: rest => batchPlain state rest

/-- json.loads reads the line or finds it no JSON, and the texts that others give for the answer can
be encoded. -/
def lineSmooth (state : State) (line : Text) : Bool :=
  strip line = [] ||
    match server.codec.loads (strip line) with
    | .valueError | .recursionError => false
    | .value (.dict message) => messagePlain server state message
    | .value (.list messages) => batchPlain server state messages
    | .value _ | .jsonDecodeError => true

/-- Every line meets the condition in the state before it. -/
def Smooth : State → List Text → Prop
  | _, [] => True
  | state, line :: lines => lineSmooth server state line = true ∧
    ∀ written next, serveLine server state line = .ok (written, next) → Smooth next lines

end Plain

section Static
variable (server : JsonRpcMcpServer)

theorem errorResponse_plain (id : Json) (code : Int) (message : Text) (data : Option Json) :
    (errorResponse id code message data).plain =
      (id.plain && encodes message && data.all Json.plain) := by
  cases data <;> simp [errorResponse, Bool.and_assoc]

theorem resultResponse_plain (id result : Json) :
    (resultResponse id result).plain = (id.plain && result.plain) := by
  simp [resultResponse]

theorem failureResponse_plain {id : Json} (known : id.plain = true) (failure : McpFailure) :
    (failureResponse id failure).plain = failure.plain := by
  cases failure <;> simp [failureResponse, errorResponse_plain, known, McpFailure.plain]

theorem safe_plain {id : Json} (valid : isValidRequestId id = true)
    (safe : isSafeRequestId id = true) : id.plain = true := by
  cases id with
  | null => rfl
  | int => rfl
  | str text =>
    refine encodes_ascii fun c member => ?_
    unfold isSafeRequestId at safe
    split at safe
    · rename_i same
      cases same
      dsimp only at safe
      split at safe
      · cases safe
      · rename_i fits
        simp only [Bool.or_eq_true, Bool.not_eq_true', not_or, Bool.not_eq_false,
          List.all_eq_true, Bool.and_eq_true, decide_eq_true_eq] at fits
        exact (fits.1.1 c member).1
    · rename_i other
      exact absurd rfl (other text)
  | bool => cases valid
  | float => cases valid
  | list => cases valid
  | dict => cases valid

theorem toolSuccess_plain (structured : Json) (isError : Bool) :
    (toolSuccess server structured isError).plain = structured.plain := by
  simp [toolSuccess, server.codec.dumps_encodes]

theorem toolError_plain (message code : Text) :
    (toolError server message code).plain = (encodes message && encodes code) := by
  simp [toolError, server.codec.dumps_encodes, Bool.and_comm]

theorem listTools_plain : (listTools server).plain = true := by
  have each : ∀ tool ∈ sortedTools server, tool.definition.plain = true := by
    intro tool _
    obtain ⟨name, description, schema⟩ := tool.plain
    simp [McpTool.definition, name, description, schema]
  simp [listTools, itemsPlain_all, List.all_eq_true]
  exact each

theorem listPrompts_plain : listPrompts.plain = true := by
  simp [listPrompts, itemsPlain_all, McpPrompt.definition]

theorem lists_plain : listResources.plain = true ∧ listResourceTemplates.plain = true := by
  constructor <;>
    simp [listResources, listResourceTemplates, resourceDefinition, templateDefinition]

end Static

section Calls
variable (server : JsonRpcMcpServer) (calls : List Call)

theorem callTool_plain (name : Text) (arguments : Json) :
    outcomePlain (callTool server calls name arguments) = toolPlain server calls name arguments := by
  unfold callTool toolPlain
  cases server.tools.find? (·.name = name) with
  | none => simp [outcomePlain, McpFailure.plain]
  | some tool =>
    cases arguments with
    | dict parsedArguments =>
      dsimp only
      cases server.adapter calls tool.handler parsedArguments with
      | error failure =>
        cases failure <;> simp [outcomePlain, McpFailure.plain, toolError_plain]
      | ok structured =>
        by_cases ask : name ∈ askTools.map chars
        · cases structured with
          | dict entries =>
            have known : ∃ b, isFailed (.dict entries) = .ok b := by
              unfold isFailed
              dsimp only
              split <;> exact ⟨_, rfl⟩
            obtain ⟨b, failed⟩ := known
            simp [ask, failed, outcomePlain, toolSuccess_plain, bind, Except.bind, pure,
              Except.pure]
          | _ => simp [ask, isFailed, outcomePlain, McpFailure.plain, bind, Except.bind]
        · cases structured <;>
            simp [ask, outcomePlain, toolSuccess_plain, bind, Except.bind, pure, Except.pure]
    | _ => simp [outcomePlain, McpFailure.plain]

/-- A uri that is read is one of a fixed text and digits. -/
theorem readData_uri {uri : Text} {data : Json} (read : readData server calls uri = .ok data) :
    encodes uri = true := by
  unfold readData at read
  split at read
  · rename_i same
    rw [same, chars_encodes]
  · split at read
    · rename_i same
      rw [same, chars_encodes]
    · split at read
      · rename_i method key digits found
        obtain ⟨⟨before, after, _, _⟩, _, matched⟩ := List.exists_of_findSome?_eq_some found
        obtain ⟨inner, between, _⟩ := Option.map_eq_some_iff.mp matched
        unfold idBetween at between
        dsimp only at between
        split at between
        · rename_i shape
          have ascii : encodes inner = true := by
            refine encodes_ascii fun c member => ?_
            cases between
            have digit := List.all_eq_true.mp shape.2.2 c member
            simp only [Bool.and_eq_true, decide_eq_true_eq] at digit
            omega
          cases between
          rw [shape.1, encodes_append, encodes_append, chars_encodes, ascii, chars_encodes]
          rfl
        · cases between
      · split at read <;> cases read

theorem readResource_plain (uri : Text) :
    outcomePlain (readResource server calls uri) = outcomePlain (readData server calls uri) := by
  unfold readResource
  cases read : readData server calls uri with
  | error failure => rfl
  | ok data =>
    simp [outcomePlain, bind, Except.bind, pure, Except.pure, readData_uri server calls read,
      server.codec.dumps_encodes]

theorem promptResult_plain (prompt : McpPrompt) (arguments : Entries) :
    (prompt.result server arguments).plain = encodes (promptQuestion server arguments) := by
  unfold McpPrompt.result
  by_cases empty : promptQuestion server arguments = []
  · have nothing : encodes [] = true := rfl
    simp [empty, nothing]
  · simp [empty, server.codec.dumps_encodes]

theorem getPrompt_plain (name : Text) (arguments : Option Json) :
    outcomePlain (getPrompt server name arguments) =
      match arguments with
      | some (.dict arguments) => !prompts.any (fun prompt => chars prompt.name = name) ||
          encodes (promptQuestion server arguments)
      | _ => true := by
  unfold getPrompt
  cases found : prompts.find? (fun prompt => chars prompt.name = name) with
  | none =>
    have missing : prompts.any (fun prompt => chars prompt.name = name) = false := by
      rw [List.any_eq_false]
      exact fun prompt member => List.find?_eq_none.mp found prompt member
    rw [missing]
    cases arguments with
    | none => simp [outcomePlain, McpFailure.plain]
    | some arguments => cases arguments <;> simp [outcomePlain, McpFailure.plain]
  | some prompt =>
    have there : prompts.any (fun prompt => chars prompt.name = name) = true :=
      List.any_eq_true.mpr ⟨prompt, List.mem_of_find?_eq_some found, by simpa using List.find?_some found⟩
    rw [there]
    have blank : encodes (promptQuestion server []) = true := rfl
    cases arguments with
    | none => simp [outcomePlain, promptResult_plain, blank]
    | some arguments =>
      cases arguments <;>
        simp [outcomePlain, promptResult_plain, blank, McpFailure.plain]

theorem initializeResult_plain (params : Entries) :
    outcomePlain (initializeResult server params) = true := by
  unfold initializeResult getMcpSettings
  cases get params "protocolVersion" with
  | none =>
    cases validateMcpSettings server.settings <;> cases enabled : server.settings.enabled <;>
      simp [enabled, outcomePlain, McpFailure.plain, bind, Except.bind, pure, Except.pure]
  | some version =>
    cases validateMcpSettings server.settings <;> cases enabled : server.settings.enabled <;>
      cases version <;>
        simp [enabled, outcomePlain, McpFailure.plain, bind, Except.bind, pure, Except.pure]

theorem dispatch_plain (method : Text) (params : Entries) :
    outcomePlain (dispatch server calls method params) = givenPlain server calls method params := by
  unfold dispatch
  -- The branches of the dispatch in their order; three of them take something from outside.
  split
  · rename_i same
    subst same
    exact initializeResult_plain server params
  split
  · rename_i same
    subst same
    rfl
  split
  · rename_i same
    subst same
    exact listTools_plain server
  split
  · rename_i same
    split
    · rename_i name known
      unfold givenPlain
      rw [if_pos same, known]
      exact callTool_plain server calls name _
    · rename_i other
      unfold givenPlain
      rw [if_pos same]
      split
      · rename_i name known
        exact absurd known (other name)
      · simp [outcomePlain, McpFailure.plain]
  split
  · rename_i same
    subst same
    exact lists_plain.1
  split
  · rename_i same
    subst same
    exact lists_plain.2
  split
  · rename_i tool _ _ same
    split
    · rename_i uri known
      unfold givenPlain
      rw [if_neg tool, if_pos same, known]
      exact readResource_plain server calls uri
    · rename_i other
      unfold givenPlain
      rw [if_neg tool, if_pos same]
      split
      · rename_i uri known
        exact absurd known (other uri)
      · simp [outcomePlain, McpFailure.plain]
  split
  · rename_i same
    subst same
    exact listPrompts_plain
  split
  · rename_i tool _ _ resource _ same
    unfold givenPlain
    rw [if_neg tool, if_neg resource, if_pos same]
    cases known : get params "name" with
    | none => simp [outcomePlain, McpFailure.plain]
    | some name =>
      cases name with
      | str name =>
        dsimp only
        rw [getPrompt_plain]
        cases get params "arguments" with
        | none => rfl
        | some arguments => cases arguments <;> rfl
      | _ => simp [outcomePlain, McpFailure.plain]
  · rename_i tool _ _ resource _ prompt
    unfold givenPlain
    rw [if_neg tool, if_neg resource, if_neg prompt]
    rfl

end Calls

section Messages
variable (server : JsonRpcMcpServer) (state : State)

theorem answerCall_plain (method : Text) (params : Entries) :
    outcomePlain (answerCall server state method params) =
      (!((validateMcpSettings server.settings).isOk && server.settings.enabled) ||
        givenPlain server state.calls method params) := by
  rw [← dispatch_plain]
  unfold answerCall getMcpSettings
  cases validateMcpSettings server.settings with
  | error message => rfl
  | ok _ =>
    cases enabled : server.settings.enabled with
    | false => simp [enabled, outcomePlain, McpFailure.plain, bind, Except.bind, Except.isOk, Except.toBool]
    | true => simp [enabled, bind, Except.bind, Except.isOk, Except.toBool]

theorem call_plain {id : Json} (known : id.plain = true) (outcome : Except McpFailure Json) :
    (match outcome with
      | .ok result => resultResponse id result
      | .error failure => failureResponse id failure).plain = outcomePlain outcome := by
  cases outcome with
  | ok result => simp [resultResponse_plain, known, outcomePlain]
  | error failure => exact failureResponse_plain known failure

/-- The ways in which a message is handled. -/
inductive Handled (message : Entries) : Option Json → Prop
  | unsafeId (id : Json) (known : get message "id" = some id)
      (wrong : (isValidRequestId id && isSafeRequestId id) = false) :
      Handled message (some (errorResponse .null jsonrpcInvalidRequest (chars "Invalid request") none))
  | noCall (safe : ∀ id, get message "id" = some id → HasId message id) (wrong : ¬IsCall message) :
      Handled message (some (errorResponse ((get message "id").getD .null) jsonrpcInvalidRequest
        (chars "Invalid request") none))
  | notified (missing : get message "id" = none) (call : IsCall message) : Handled message none
  | noParams (id : Json) (safe : HasId message id) (call : IsCall message)
      (wrong : paramsOf message = none) :
      Handled message (some (errorResponse id jsonrpcInvalidParams (chars "Invalid params") none))
  | called (id : Json) (method : Text) (params : Entries) (safe : HasId message id)
      (version : get message "jsonrpc" = some (.str (chars "2.0")))
      (named : get message "method" = some (.str method)) (given : paramsOf message = some params) :
      Handled message (some (match answerCall server state method params with
        | .ok result => resultResponse id result
        | .error failure => failureResponse id failure))

theorem handleMessage_cases (message : Entries) :
    Handled server state message (handleMessage server state message).1 := by
  unfold handleMessage
  dsimp only
  split
  · rename_i wrong
    cases known : get message "id" with
    | none => simp [known] at wrong
    | some id =>
      refine .unsafeId id known ?_
      simpa [known, ← Bool.not_and] using wrong
  · rename_i right
    have safe : ∀ id, get message "id" = some id → HasId message id := by
      intro id known
      simp only [known, Option.any_some, Bool.or_eq_true, Bool.not_eq_true', not_or,
        Bool.not_eq_false] at right
      exact ⟨known, right.1, right.2⟩
    split
    · rename_i version method named called
      split
      · rename_i other
        refine .noCall safe fun call => other ?_
        exact Json.str.inj (Option.some.inj (named.symm.trans call.1))
      · rename_i same
        obtain rfl := Decidable.not_not.mp same
        have call : IsCall message := ⟨named, method, called⟩
        split
        · rename_i missing
          split <;> exact .notified missing call
        · rename_i id known
          have given := safe id known
          rw [known]
          split
          · rename_i params
            exact .called id method [] given named called (by rw [paramsOf, params])
          · rename_i params
            exact .called id method [] given named called (by rw [paramsOf, params])
          · rename_i params shape
            exact .called id method params given named called (by rw [paramsOf, shape])
          · rename_i v missing null dict shape
            refine .noParams id given call ?_
            rw [paramsOf, shape]
            cases v <;> simp_all
    · rename_i other
      refine .noCall safe fun call => ?_
      obtain ⟨method, named⟩ := call.2
      exact other _ _ call.1 named

/-- The response to a message can be encoded as what is given for it can. -/
theorem handleMessage_plain (message : Entries) :
    (handleMessage server state message).1.all Json.plain = messagePlain server state message := by
  have handled := handleMessage_cases server state message
  revert handled
  generalize (handleMessage server state message).1 = response
  rintro (⟨id, known, wrong⟩ | ⟨safe, wrong⟩ | ⟨missing, call⟩ | ⟨id, safe, call, wrong⟩ |
    ⟨id, method, params, safe, version, named, given⟩)
  · unfold messagePlain
    rw [known]
    split
    · rename_i same _ _ _
      cases same
      simp [errorResponse_plain, wrong]
    · simp [errorResponse_plain]
  · have plain : ((get message "id").getD .null).plain = true := by
      cases known : get message "id" with
      | none => rfl
      | some id => exact safe_plain (safe id known).2.1 (safe id known).2.2
    unfold messagePlain
    rw [Option.all_some, errorResponse_plain, plain]
    split
    · rename_i version method _ _ called named _
      have other : (version == chars "2.0") = false := by
        rw [beq_eq_false_iff_ne]
        rintro rfl
        exact wrong ⟨called, method, named⟩
      simp [other]
    · simp
  · simp [messagePlain, missing]
  · have plain := safe_plain safe.2.1 safe.2.2
    simp [messagePlain, wrong, errorResponse_plain, plain]
  · have plain := safe_plain safe.2.1 safe.2.2
    rw [Option.all_some, call_plain plain, answerCall_plain]
    simp [messagePlain, safe.1, version, named, given, safe.2.1, safe.2.2]

/-- Every message is answered as it is to be. -/
theorem handleMessage_responds (message : Entries) :
    Responds message (handleMessage server state message).1 := by
  have handled := handleMessage_cases server state message
  revert handled
  generalize (handleMessage server state message).1 = response
  have error_response (id : Json) (code : Int) (text : Text) (data : Option Json) :
      IsResponse id (errorResponse id code text data) ∧ IsError id (errorResponse id code text data) :=
    ⟨⟨chars "error", _, rfl, .inr rfl⟩, _, rfl⟩
  rintro (⟨id, known, wrong⟩ | ⟨safe, wrong⟩ | ⟨missing, call⟩ | ⟨id, safe, call, wrong⟩ |
    ⟨id, method, params, safe, version, named, given⟩)
  · refine ⟨fun other given => ?_, fun missing => ?_, fun _ => ⟨_, _, rfl, (error_response _ _ _ _).2⟩⟩
    · cases Option.some.inj (given.1.symm.trans known)
      simp [given.2] at wrong
    · rw [known] at missing
      cases missing
  · refine ⟨fun id given => ⟨_, rfl, ?_⟩, fun _ call => absurd call wrong,
      fun _ => ⟨_, _, rfl, (error_response _ _ _ _).2⟩⟩
    rw [given.1]
    exact (error_response _ _ _ _).1
  · refine ⟨fun id given => ?_, fun _ _ => rfl, fun other => absurd ⟨call, .inl missing⟩ other⟩
    cases missing.symm.trans given.1
  · refine ⟨fun other given => ⟨_, rfl, ?_⟩, fun missing => ?_,
      fun _ => ⟨_, _, rfl, (error_response _ _ _ _).2⟩⟩
    · cases Option.some.inj (given.1.symm.trans safe.1)
      exact (error_response _ _ _ _).1
    · rw [safe.1] at missing
      cases missing
  · refine ⟨fun other again => ⟨_, rfl, ?_⟩, fun missing => ?_,
      fun other => absurd ⟨⟨version, method, named⟩, .inr ⟨id, safe⟩⟩ other⟩
    · cases Option.some.inj (again.1.symm.trans safe.1)
      cases answerCall server state method params with
      | ok result => exact ⟨chars "result", result, rfl, .inl rfl⟩
      | error failure => cases failure <;> exact (error_response _ _ _ _).1
    · rw [safe.1] at missing
      cases missing

end Messages

section Lines
variable (server : JsonRpcMcpServer) (state : State)

theorem batchResponses_plain (messages : List Json) :
    (batchResponses server state messages).1.all Json.plain = batchPlain server state messages := by
  induction messages generalizing state with
  | nil => rfl
  | cons message rest ih =>
    cases message with
    | dict message =>
      rw [batchResponses, batchPlain, List.all_append, ih, ← handleMessage_plain]
      cases (handleMessage server state message).1 <;> simp
    | _ => simp [batchResponses, batchPlain, ih, errorResponse_plain]

theorem batchResponses_answers (messages : List Json) :
    ∃ responses, List.Forall₂ MemberAnswer messages responses ∧
      (batchResponses server state messages).1 = responses.reduceOption := by
  induction messages generalizing state with
  | nil => exact ⟨[], .nil, rfl⟩
  | cons message rest ih =>
    cases message with
    | dict message =>
      obtain ⟨responses, answers, shape⟩ := ih (handleMessage server state message).2
      refine ⟨(handleMessage server state message).1 :: responses,
        .cons (handleMessage_responds server state message) answers, ?_⟩
      have turn : (batchResponses server state (.dict message :: rest)).1 =
          (handleMessage server state message).1.toList ++
            (batchResponses server (handleMessage server state message).2 rest).1 := rfl
      rw [turn, shape]
      cases (handleMessage server state message).1 <;> rfl
    | _ =>
      obtain ⟨responses, answers, shape⟩ := ih state
      exact ⟨some (errorResponse .null jsonrpcInvalidRequest (chars "Invalid request") none) :: responses,
        .cons ⟨_, rfl, _, rfl⟩ answers, congrArg (List.cons _) shape⟩

theorem handleBatch_plain {messages : List Json} (some_message : messages ≠ []) :
    (handleBatch server state messages).1.all Json.plain = batchPlain server state messages := by
  rw [← batchResponses_plain]
  unfold handleBatch
  rw [if_neg some_message]
  dsimp only
  split
  · rename_i empty
    rw [empty]
    rfl
  · simp [itemsPlain_all]

/-- A response is written as it can be encoded. -/
theorem writeResponse_ok (answer : Option Json × State) (written : List Json) (next : State) :
    writeResponse server answer = .ok (written, next) ↔
      answer.1.all Json.plain = true ∧ written = answer.1.toList ∧ next = answer.2 := by
  obtain ⟨response, last⟩ := answer
  cases response with
  | none =>
    constructor
    · intro done
      cases done
      exact ⟨rfl, rfl, rfl⟩
    · rintro ⟨_, rfl, rfl⟩
      rfl
  | some response =>
    unfold writeResponse writeMessage
    simp only [encodes_append, server.codec.dumps_encodes, chars_encodes, Bool.and_true]
    cases plain : response.plain with
    | false => simp [plain, Except.map]
    | true =>
      constructor
      · intro done
        cases done
        exact ⟨plain, rfl, rfl⟩
      · rintro ⟨_, rfl, rfl⟩
        rfl

/-- How a line that shows is read and answered. -/
theorem respond_cases (line : Text) :
    match server.codec.loads (strip line) with
    | .valueError | .recursionError => ∃ crash, respond server state (strip line) = .error crash
    | .value (.dict message) =>
      respond server state (strip line) = .ok (handleMessage server state message)
    | .value (.list messages) =>
      respond server state (strip line) = .ok (handleBatch server state messages)
    | .value _ | .jsonDecodeError => ∃ (code : Int) (text : String),
      respond server state (strip line) =
        .ok (some (errorResponse .null code (chars text) none), state) := by
  unfold respond
  cases server.codec.loads (strip line) with
  | value v => cases v <;> first | rfl | exact ⟨_, _, rfl⟩
  | jsonDecodeError => exact ⟨_, _, rfl⟩
  | valueError => exact ⟨_, rfl⟩
  | recursionError => exact ⟨_, rfl⟩

/-- A turn of the loop ends in an exception unless the line meets the condition. -/
theorem serveLine_smooth (line : Text) :
    (∃ written next, serveLine server state line = .ok (written, next)) ↔
      lineSmooth server state line = true := by
  have ends (answer : Option Json × State) :
      (∃ written next, writeResponse server answer = .ok (written, next)) ↔
        answer.1.all Json.plain = true := by
    simp only [writeResponse_ok]
    exact ⟨fun ⟨_, _, plain, _⟩ => plain, fun plain => ⟨_, _, plain, rfl, rfl⟩⟩
  have fixed (code : Int) (text : String) :
      (∃ written next, writeResponse server
        (some (errorResponse .null code (chars text) none), state) = .ok (written, next)) := by
    rw [ends]
    simp [errorResponse_plain]
  have given := respond_cases server state line
  unfold serveLine lineSmooth
  by_cases blank : strip line = []
  · simp [blank]
  · simp only [blank, if_false, decide_false, Bool.false_or]
    revert given
    cases server.codec.loads (strip line) with
    | valueError =>
      rintro ⟨crash, failed⟩
      simp [failed, bind, Except.bind]
    | recursionError =>
      rintro ⟨crash, failed⟩
      simp [failed, bind, Except.bind]
    | jsonDecodeError =>
      rintro ⟨code, text, answered⟩
      rw [answered]
      exact ⟨fun _ => rfl, fun _ => fixed code text⟩
    | value v =>
      cases v with
      | dict message =>
        intro answered
        rw [answered]
        show _ ↔ messagePlain server state message = true
        rw [← handleMessage_plain]
        exact ends _
      | list messages =>
        intro answered
        rw [answered]
        show _ ↔ batchPlain server state messages = true
        by_cases empty : messages = []
        · subst empty
          exact ⟨fun _ => rfl, fun _ => fixed _ _⟩
        · rw [← handleBatch_plain server state empty]
          exact ends _
      | _ =>
        rintro ⟨code, text, answered⟩
        rw [answered]
        exact ⟨fun _ => rfl, fun _ => fixed code text⟩

/-- A turn of the loop that ends has answered its line. -/
theorem serveLine_answer {line : Text} {written : List Json} {next : State}
    {blankAnswer : List Json → Prop} (allowed : strip line = [] → blankAnswer [])
    (served : serveLine server state line = .ok (written, next)) :
    LineAnswer blankAnswer server.codec line written := by
  have given := respond_cases server state line
  unfold serveLine at served
  unfold LineAnswer
  by_cases blank : strip line = []
  · simp only [blank, if_true] at served ⊢
    cases served
    exact allowed blank
  · simp only [blank, if_false] at served ⊢
    obtain ⟨answer, answered, wrote⟩ := Fallible.bind_ok served
    obtain ⟨_, rfl, _⟩ := (writeResponse_ok server answer written next).mp wrote
    revert given
    cases server.codec.loads (strip line) with
    | valueError =>
      rintro ⟨crash, failed⟩
      cases answered.symm.trans failed
    | recursionError =>
      rintro ⟨crash, failed⟩
      cases answered.symm.trans failed
    | jsonDecodeError =>
      rintro ⟨code, text, other⟩
      cases answered.symm.trans other
      exact ⟨_, ⟨_, rfl⟩, rfl⟩
    | value v =>
      cases v with
      | dict message =>
        intro other
        cases answered.symm.trans other
        exact ⟨_, handleMessage_responds server state message, rfl⟩
      | list messages =>
        intro other
        cases answered.symm.trans other
        cases messages with
        | nil => exact ⟨_, ⟨_, rfl⟩, rfl⟩
        | cons item items =>
          obtain ⟨responses, answers, shape⟩ := batchResponses_answers server state (item :: items)
          refine ⟨responses, answers, ?_⟩
          unfold handleBatch
          rw [if_neg (List.cons_ne_nil item items)]
          dsimp only
          rw [shape]
          split <;> rfl
      | _ =>
        rintro ⟨code, text, other⟩
        cases answered.symm.trans other
        exact ⟨_, ⟨_, rfl⟩, rfl⟩

end Lines

section Runs
variable (server : JsonRpcMcpServer)

/-- The loop reads all lines, and each line writes what it is to write. -/
def RunAnswers (blank : List Json → Prop) (state : State) (lines : List Text) : Prop :=
  ∃ written, runStdio server state lines = (written, none) ∧
    List.Forall₂ (LineAnswer blank server.codec) lines written

theorem run_smooth (blank : List Json → Prop) (state : State) (lines : List Text) :
    RunAnswers server blank state lines ↔
      Smooth server state lines ∧ ∀ line ∈ lines, strip line = [] → blank [] := by
  induction lines generalizing state with
  | nil => exact ⟨fun _ => ⟨trivial, fun _ none => nomatch none⟩, fun _ => ⟨[], rfl, .nil⟩⟩
  | cons line lines ih =>
    unfold RunAnswers Smooth
    rw [← serveLine_smooth, List.forall_mem_cons]
    cases served : serveLine server state line with
    | error crash =>
      constructor
      · rintro ⟨written, ended, _⟩
        simp [runStdio, served] at ended
      · rintro ⟨⟨⟨_, _, impossible⟩, _⟩, _⟩
        cases impossible
    | ok pair =>
      obtain ⟨first, next⟩ := pair
      have turn : runStdio server state (line :: lines) =
          (first :: (runStdio server next lines).1, (runStdio server next lines).2) := by
        simp [runStdio, served]
      constructor
      · rintro ⟨written, ended, answers⟩
        rw [turn] at ended
        obtain ⟨rfl, finished⟩ := Prod.mk.inj ended
        cases answers with
        | cons answer rest =>
          obtain ⟨smooth, others⟩ := (ih next).mp ⟨_, Prod.ext rfl finished, rest⟩
          refine ⟨⟨⟨first, next, rfl⟩, fun written last same => ?_⟩, fun empty => ?_, others⟩
          · cases same
            exact smooth
          · -- The turn of a blank line has written nothing.
            unfold LineAnswer at answer
            simp only [serveLine, empty, if_true] at answer served
            cases served
            exact answer
      · rintro ⟨⟨_, rest⟩, allowed, others⟩
        obtain ⟨written, ended, answers⟩ := (ih next).mpr ⟨rest first next rfl, others⟩
        refine ⟨first :: written, ?_, .cons (serveLine_answer server state allowed served) answers⟩
        rw [turn, ended]

/-- Every line is answered as it is to be when each is read, or found no JSON, and the texts from
outside can be encoded; where a blank line is to be answered as well, when moreover none is blank. -/
theorem stdio_answers (server : JsonRpcMcpServer) (state : State) (lines : List Text) :
    (RunAnswers server (· = []) state lines ↔ Smooth server state lines) ∧
      (RunAnswers server (fun written => ∃ r, IsError .null r ∧ written = [r]) state lines ↔
        Smooth server state lines ∧ ∀ line ∈ lines, strip line ≠ []) := by
  constructor
  · rw [run_smooth]
    exact and_iff_left fun _ _ _ => rfl
  · rw [run_smooth]
    refine and_congr_right fun _ => forall₂_congr fun line _ => ?_
    constructor
    · intro answered empty
      obtain ⟨_, _, impossible⟩ := answered empty
      cases impossible
    · exact fun shows empty => absurd empty shows

end Runs

section Cases

def isDigits (text : Text) : Bool := text ≠ [] && text.all fun c => 48 ≤ c.val && c.val ≤ 57

/-- json.loads for texts that are numbers, or no JSON. -/
def numberLoads (text : Text) : Loaded :=
  if isDigits text then
    if Python.maxStrDigits < text.length then .valueError
    else .value (.int (text.foldl (fun n c => n * 10 + (c.val - 48)) 0 : Nat))
  else .jsonDecodeError

def numberServer : JsonRpcMcpServer where
  codec := {
    loads := numberLoads
    dumps := fun v _ => if v.plain then chars "null" else [0xd800]
    dumps_encodes := by
      intro v _
      cases v.plain <;> rfl }
  settings := ⟨true, "stdio", none, true, "mcp_local", 200, 10, false, supportedStrategies, 1000, false⟩
  tools := []
  adapter _ _ _ := .error .exception
  truncateText text _ := text

/-- A number of 4301 digits. -/
def longNumber : Text := List.replicate 4301 49

theorem long_number_ends_loop :
    ¬RunAnswers numberServer (· = []) {} [longNumber, chars "1"] := by
  have stripped : strip longNumber = longNumber := by
    refine strip_solid fun c member => ?_
    rw [List.eq_of_mem_replicate member]
    decide
  have long : longNumber.length = 4301 := List.length_replicate
  have digits : isDigits longNumber = true := by
    unfold isDigits longNumber
    rw [List.all_replicate]
    rfl
  have read : numberLoads longNumber = .valueError := by
    unfold numberLoads
    rw [if_pos digits, if_pos (by rw [long]; decide)]
  have served : serveLine numberServer {} longNumber = .error .valueError := by
    have loads : numberServer.codec.loads = numberLoads := rfl
    have shows : longNumber ≠ [] := by
      intro empty
      simp [empty] at long
    unfold serveLine respond
    simp only [stripped, loads, read, shows, if_false]
    rfl
  rintro ⟨written, ended, _⟩
  simp [runStdio, served] at ended

end Cases
end RagProject.Mcp
