import CloudComputing.Lib.Decimal
import CloudComputing.Lab2.Queues

/-!
# Requests

`Dealer` and what it calls.  It reads `recv_buf` as a C string, so it sees what
has been received and what stands behind it in memory.  The file system is a
parameter: the size of the file that `open` finds.  Of the positions that the
code keeps in an `int` none reaches `2 ^ 31`, as long as the string is shorter.

A round of the loop ends undefined where a scan for a space leaves the request
and where `substr` throws.
-/

namespace CloudComputing
namespace Lab2

open Decimal

/-- `st_size` of what `open` finds under this path, a file or a directory. -/
abbrev Files := Bytes → Option Int

/-- The header of an answer, with the length of its entity. -/
def withLength (before entity after : Bytes) : Bytes :=
  before ++ intToDecimal (toInt32 entity.length) ++ after ++ entity

/-- The message of `Error_dealer`. -/
def errorMessage (method url : Bytes) : Bytes :=
  if method ≠ str "GET" ∧ method ≠ str "POST" then
    withLength
      (str "Http/1.1 501 Not Implemented\r\nContent-type: text/html\r\nContent-Length: ")
      (str "<htmL><title>501 Not Implemented</title><body bgcolor=ffffff>\n Not Implemented\n<p>Does not implement this method: " ++
        method ++ str "\n,<hr><em>HTTP Web Server </em>\n</body></html>\n")
      (str "\r\n\r\n")
  else
    withLength
      (str "Http/1.1 404 Not Found\r\nContent-type: text/html\r\nContent-Length: ")
      (if method = str "GET" then
        str "<html><title>GET 404 Not Found</title><body bgcolor=ffffff>\n Not Found\n<p>Couldn't find this file: " ++
          url ++ str "\n<hr><em>HTTP Web Sever</em>\n</body></html>\n"
      else
        str "<html><title>POST 404 Not Found</title><body bgcolor=ffffff>\n Not Found\n<hr><em>HTTP Web Sever</em>\n</body></html>\n")
      (str "\r\n\r\n")

/-- `Error_dealer`: what it gives to `putMessage`. -/
def errorDealer (method url : Bytes) (sockfd : Descriptor) : OutPutTask where
  type := 1
  filePath := str "NULL"
  sockfd := sockfd
  message := errorMessage method url

/-- The path that `Get_dealer` opens.  For an empty `url` the first comparison
reads a byte in front of the string, and the second one holds. -/
def getPath (url : Bytes) : Bytes :=
  if Bytes.find (str ".") url = none then
    if url.getLast? = some 47 ∨ url.length = 0 then
      str "./src" ++ (url ++ str "index.html")
    else str "./src" ++ (url ++ str "./index.html")
  else str "./src" ++ url

/-- `Get_dealer`.  Its `%d` prints the size as an `int`. -/
def getDealer
    (files : Files)
    (method url : Bytes)
    (sockfd : Descriptor) : OutPutTask :=
  match files (getPath url) with
  | some size =>
      { type := 0
        filePath := getPath url
        sockfd := sockfd
        message :=
          str "Http/1.1 200 OK\r\nContent-Length: " ++
            intToDecimal (toInt32 size) ++
            str "\r\nContent-Type: text/html\r\n\r\n" }
  | none => errorDealer method url sockfd

/-- `Post_dealer`. -/
def postDealer (name ID : Bytes) (sockfd : Descriptor) : OutPutTask where
  type := 1
  filePath := str "NULL"
  sockfd := sockfd
  message :=
    withLength
      (str "HTTP/1.1 200 OK\r\ncontent-type: text/html\r\ncontent-length: ")
      (str "<html><title>POST Method</title><body bgcolor=ffffff>\nYour Name: " ++
        name ++ str "\nID: " ++ ID ++
        str "\n<hr><em>Http Web server</em>\n</body></html>\n")
      (str "\r\n\r\n")

namespace Dealer

/-- The condition of the loop. -/
def hasHttp (s_buf : Bytes) : Bool :=
  (Bytes.find (str "HTTP/1.1") s_buf).isSome ||
    (Bytes.find (str "HTTP/1.0") s_buf).isSome

/-- `entity_len`.  The request ends with an empty line, so the scan for `'\r'`
stays in it. -/
def entityLen (request : Bytes) (headEndPos : Nat) : Int :=
  atoi ((request.drop (headEndPos + 15)).takeWhile (· ≠ 13))

/-- The complete request in front of `s_buf`, and where its entity begins.  The
declared length is compared as a `size_t`. -/
def completeRequest (s_buf : Bytes) : Option (Bytes × Nat) :=
  match Bytes.find (str "\r\n\r\n") s_buf with
  | none => none
  | some position =>
      let request := s_buf.take (position + 4)
      match Bytes.find (str "Content-Length") request with
      | none => some (request, request.length)
      | some headEndPos =>
          let len := entityLen request headEndPos
          if toUInt64 len ≤ s_buf.length - request.length then
            some (s_buf.take (request.length + len.toNat), request.length)
          else none

/-- The loops that collect bytes up to a space: the word, and what stands
behind the space. -/
def word (text : Bytes) : Option (Bytes × Bytes) :=
  if 32 ∈ text then
    some (text.takeWhile (· ≠ 32), (text.dropWhile (· ≠ 32)).drop 1)
  else none

/-- The branch of a POST request for `/Post_show`. -/
def postShow
    (method url entity : Bytes)
    (sockfd : Descriptor) : Option OutPutTask :=
  match Bytes.find (str "Name") entity, Bytes.find (str "ID") entity with
  | some namePos, some idPos =>
      if idPos ≤ namePos then some (errorDealer method url sockfd)
      else do
        let name ← Bytes.substr entity (namePos + 5)
          ((idPos : Int) - namePos - 5)
        let ID ← Bytes.substrFrom entity (idPos + 3)
        some (postDealer name ID sockfd)
  | _, _ => some (errorDealer method url sockfd)

/-- What a round of the loop does with a complete request: the one call of
`putMessage`. -/
def answer
    (files : Files)
    (sockfd : Descriptor)
    (request : Bytes)
    (entityPos : Nat) : Option OutPutTask := do
  let (method, rest) ← word request
  if method ≠ str "GET" ∧ method ≠ str "POST" then
    some (errorDealer method [] sockfd)
  else do
    let (url, _) ← word rest
    if method = str "GET" then some (getDealer files method url sockfd)
    else if url ≠ str "/Post_show" then some (errorDealer method url sockfd)
    else postShow method url (request.drop entityPos) sockfd

/-- What a round of the loop comes to. -/
inductive Round
  | finished
  | again
  | undefined
  | answered (task : OutPutTask) (s_buf : Bytes)
  deriving DecidableEq, Repr

/-- A round of the loop.  Without a complete request it begins again with the
same `s_buf`, and after a request only one byte of `s_buf` is kept. -/
def round
    (files : Files)
    (sockfd : Descriptor)
    (s_buf : Bytes) : Round :=
  if hasHttp s_buf then
    match completeRequest s_buf with
    | none => .again
    | some (request, entityPos) =>
        match answer files sockfd request entityPos with
        | none => .undefined
        | some task => .answered task [s_buf.getD request.length 0]
  else .finished

/-- `Dealer` for so many rounds of its loop: whether it has returned, and the
messages that it has enqueued. -/
def rounds
    (files : Files)
    (sockfd : Descriptor) : Nat → Bytes → Option (Bool × List OutPutTask)
  | 0, _ => some (false, [])
  | count + 1, s_buf =>
      match round files sockfd s_buf with
      | .finished => some (true, [])
      | .again => rounds files sockfd count s_buf
      | .undefined => none
      | .answered task s_buf =>
          (rounds files sockfd count s_buf).map fun (returned, tasks) =>
            (returned, task :: tasks)

/-- A C string in memory. -/
def cString (memory : Bytes) : Bytes := memory.takeWhile (· ≠ 0)

/-- `recv_buf` after `recv`. -/
def received (previous bytes : Bytes) : Bytes :=
  bytes ++ previous.drop bytes.length

end Dealer
end Lab2
end CloudComputing
