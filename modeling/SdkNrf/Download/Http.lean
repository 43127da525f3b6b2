import SdkNrf.Framework.Bytes
import SdkNrf.Framework.CString

/-!
# HTTP in the download client

`http.c`: the request that is written into the buffer of the client, and the parser that is run after every
reception.
-/

namespace SdkNrf.Download

open CString

/-- `IPPROTO_TCP` and `IPPROTO_TLS_1_2`. -/
inductive Proto
  | tcp
  | tls
  deriving DecidableEq, Repr

/-- `CONFIG_DOWNLOAD_CLIENT_BUF_SIZE` and `CONFIG_DOWNLOAD_CLIENT_HTTP_FRAG_SIZE`. -/
structure Config where
  bufSize : Nat
  httpFragSize : Nat
  fragSize_pos : 0 < httpFragSize
  fragSize_le : httpFragSize ≤ bufSize

/-- What stays the same during a download: the protocol, the host and the file as `url_parse_host`
and `url_parse_file` leave them, and the configuration of the connection. -/
structure Resource where
  proto : Proto
  host : List UInt8
  file : List UInt8
  fragSizeOverride : Nat

/-- `struct download_client`. -/
structure Client where
  buf : List UInt8
  offset : Nat
  fileSize : Nat
  progress : Nat
  hasHeader : Bool
  connectionClose : Bool
  deriving DecidableEq

structure Request where
  first : Nat
  last : Option Nat
  deriving DecidableEq, Repr

section Request

variable (cfg : Config) (dl : Resource)

/-- `%u`. -/
def decimal (n : Nat) : List UInt8 := (Nat.toDigits 10 n).map fun c => UInt8.ofNat c.toNat

def span : Nat := if dl.fragSizeOverride ≠ 0 then dl.fragSizeOverride else cfg.httpFragSize

def rangeEnd (client : Client) : Nat :=
  let off := client.progress + span cfg dl - 1
  if client.fileSize ≠ 0 then min off client.fileSize else off

def requestRange (client : Client) : Request :=
  match dl.proto with
  | .tls => ⟨client.progress, some (rangeEnd cfg dl client)⟩
  | .tcp => ⟨client.progress, none⟩

/-- `GET_HTTP_TEMPLATE` and `GET_HTTPS_TEMPLATE`. -/
def requestText (r : Request) : List UInt8 :=
  bytes "GET /" ++ dl.file ++ bytes " HTTP/1.1\r\nHost: " ++ dl.host ++
    bytes "\r\nRange: bytes=" ++ decimal r.first ++ bytes "-" ++ (r.last.map decimal).getD [] ++
    bytes "\r\nConnection: keep-alive\r\n\r\n"

/-- `http_get_request_send` in front of `socket_send`; `none` when the request does not fit into
the buffer. `snprintf` ends the text with a NUL. -/
def httpGetRequestSend (client : Client) : Option (Client × Request) :=
  let text := requestText dl (requestRange cfg dl client)
  if cfg.bufSize < text.length then none
  else some ({ client with buf := Memory.write client.buf 0 (text.take (cfg.bufSize - 1) ++ [0]) },
    requestRange cfg dl client)

end Request

/-- The value of the header field that has the file size: behind the slash in `Content-Range`, or
behind the colon in `Content-Length`. -/
def fileSizeField (proto : Proto) (buf : List UInt8) : Option Nat :=
  let field := match proto with
    | .tls => (bytes "content-range", bytes "/")
    | .tcp => (bytes "content-length", bytes ":")
  (strstr buf field.1).bind fun p =>
    (strstr (buf.drop p) field.2).map fun q => (atoi (buf.drop (p + q + 1)) % 2 ^ 32).toNat

def lowerHeader (buf : List UInt8) (hdrLen : Nat) : List UInt8 :=
  (buf.take hdrLen).map toLower ++ buf.drop hdrLen

/-- The results 1, -1 and 0 of `http_header_parse`; the last one with the length of the header. -/
inductive HeaderParse
  | receiving
  | error
  | received (client : Client) (hdrLen : Nat)

def httpHeaderParse (dl : Resource) (client : Client) : HeaderParse :=
  match strstr client.buf (bytes "\r\n\r\n") with
  | none => .receiving
  | some p =>
    let buf := lowerHeader client.buf (p + 4)
    if (strstr buf (bytes "http/1.1 206")).isNone &&
        (dl.proto = .tls || (strstr buf (bytes "http/1.1 200")).isNone) then .error
    else
      match if client.fileSize = 0 then fileSizeField dl.proto buf else some client.fileSize with
      | none => .error
      | some fileSize =>
        .received { client with
          buf := buf
          fileSize := fileSize
          connectionClose :=
            client.connectionClose || (strstr buf (bytes "connection: close")).isSome
          hasHeader := true } (p + 4)

/-- The results 1, 0 and -1 of `http_parse`. In the last case the header ends behind the received
bytes, and the length that is passed to `memcpy` wraps. -/
inductive Parsed
  | more (client : Client)
  | whole (client : Client)
  | error
  | overrun

/-- The end of `http_parse`: the progress, and whether a whole fragment has been received. -/
def accumulate (cfg : Config) (client : Client) (len : Nat) : Parsed :=
  let client := { client with progress := client.progress + min client.offset len }
  if client.offset < cfg.httpFragSize ∧ client.progress ≠ client.fileSize then .more client
  else .whole client

def httpParse (cfg : Config) (dl : Resource) (client : Client) (len : Nat) : Parsed :=
  let client := { client with offset := client.offset + len }
  if client.hasHeader then accumulate cfg client len
  else
    match httpHeaderParse dl client with
    | .receiving => .more client
    | .error => .error
    | .received client hdrLen =>
      if client.offset < hdrLen then .overrun
      else
        accumulate cfg { client with
          buf := Memory.write client.buf 0
            ((client.buf.drop hdrLen).take (client.offset - hdrLen))
          offset := client.offset - hdrLen } len

end SdkNrf.Download
