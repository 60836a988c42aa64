import OpenHalo.Logon.Handshake

namespace OpenHalo
open Octets Memory

/-- The methods pg_hba.conf can name, and the one for no entry at all. -/
inductive UserAuth
  | uaReject | uaImplicitReject | uaTrust | uaIdent | uaPassword | uaMD5 | uaSCRAM | uaGSS | uaSSPI | uaPAM
  | uaBSD | uaLDAP | uaCert | uaRADIUS | uaPeer
deriving Repr, DecidableEq

inductive PasswordType
  | plaintext | md5 | scram | mysNativePassword
deriving Repr, DecidableEq

/-- A row of pg_authid; `expired` says that rolvaliduntil has passed. -/
structure Role where
  rolpassword : Option Bytes
  expired : Bool
deriving Repr, DecidableEq

/-- What the logon depends on besides the packets: the method, the roles, and variables read before they
are written. -/
structure Server where
  auth_method : UserAuth
  roles : Bytes → Option Role
  sha1 : Sha1
  sslOpens : Bool
  authRespBuf : Mem
  pwtype : PasswordType
  shadowBuf : Mem
  behindShadow : Mem

def get_role_password (roles : Bytes → Option Role) (role : Bytes) : Option Bytes :=
  match roles role with
  | none => none
  | some r =>
    match r.rolpassword with
    | none => none
    | some shadow_pass => if r.expired then none else some shadow_pass

def Server.checkNative (server : Server) (userPwd : Mem) (shadow_pass : Bytes) : Bool :=
  checkMysNativeAuth server.sha1 server.shadowBuf userPwd (load (shadow_pass ++ [0]) 0 server.behindShadow)

def mysCheckAuth (server : Server) (userName : Bytes) (userPwd : Mem) : Bool :=
  match get_role_password server.roles userName with
  | none => userPwd 0 == 0
  | some shadow_pass =>
    if userPwd 0 = 0 then false
    else
      match if isNativePassword shadow_pass then .mysNativePassword else server.pwtype with
      | .mysNativePassword => server.checkNative userPwd shadow_pass
      | .plaintext => false
      | .md5 => false
      | .scram => false

def searchPath (database_name : Bytes) : Bytes :=
  if database_name = [] then [] else database_name ++ ascii ", mysql, pg_catalog, \"$user\", public"

/-- How a logon ends: the backend exits, goes on with a session, or has overwritten its stack. -/
inductive Logon
  | exit
  | overrun
  | session (user_name database_name : Bytes) (frontEndCaps : Nat) (search_path : Bytes)
deriving Repr, DecidableEq

def startSession (resp : HandshakeResp) : Logon :=
  .session resp.userName (resp.db.map lower) resp.clientFlag (searchPath (resp.db.map lower))

/-- `authenticate` behind the parser, whose return code is not looked at. -/
def Server.admit (server : Server) (resp : HandshakeResp) : Logon :=
  if server.roles resp.userName = none then .exit
  else match server.auth_method with
    | .uaReject => startSession resp
    | .uaImplicitReject => .exit
    | .uaMD5 => if mysCheckAuth server resp.userName resp.authResp then startSession resp else .exit
    | _ => startSession resp

def authenticate (server : Server) : List LogonPacket → Logon
  | [] => .exit
  | first :: rest =>
    match parseHandshakeRespPacketPayload server.sslOpens first rest server.authRespBuf with
    | .gone => .exit
    | .overrun => .overrun
    | .returned _ resp => server.admit resp

end OpenHalo
