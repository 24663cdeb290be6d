import RiakClient.Computation
import RiakClient.AllOrNothing
import RiakClient.TextBuffer
import RiakClient.Cascade
import RiakClient.Protobuf
import RiakClient.Binary
import RiakClient.ChunkCursor
import RiakClient.Object
import RiakClient.ObjectContent
import RiakClient.Streaming
import RiakClient.Index
import RiakClient.IndexStream
import RiakClient.Listing
import RiakClient.MapReduce
import RiakClient.ResponseFree
import RiakClient.StreamCalls
import RiakClient.ListingMemory
import RiakClient.IndexSafety
import RiakClient.StreamSafety
import RiakClient.MapReduceStream
import RiakClient.OptionRecord
import RiakClient.FlaggedMembers
import RiakClient.Put
import RiakClient.RiakArray
import RiakClient.ArrayRefinement
import RiakClient.ArrayBounds
import RiakClient.ArrayMemory
import RiakClient.IndexRequest
import RiakClient.Framing
import RiakClient.Read
import RiakClient.Run
import RiakClient.ReadTurns
import RiakClient.ReadFailure
import RiakClient.WriteFrames
import RiakClient.ReadFraming
import RiakClient.Callbacks
import RiakClient.ServerErrors
import RiakClient.ReadPrefix
import RiakClient.ReadSafety
import RiakClient.Sync
import RiakClient.Bucketprops
import RiakClient.Related
import RiakClient.Requests
import RiakClient.BucketpropsMessages
import RiakClient.Api
import RiakClient.FetchStore
import RiakClient.Addressing
import RiakClient.BucketpropsDecode
import RiakClient.BucketpropsResponse
import RiakClient.ResponseMemory
import RiakClient.RequestMemory
import RiakClient.Search
import RiakClient.BucketpropsRoundTrip
import RiakClient.Setters
import RiakClient.Collections
import RiakClient.OptionRequests
import RiakClient.Print
import RiakClient.Compare
import RiakClient.BinaryOrder
import RiakClient.Connection
import RiakClient.PrintSafety
import RiakClient.PrintCalls
import RiakClient.BucketpropsPrint
import RiakClient.PrintCounts
import RiakClient.PrintBounds
import RiakClient.Arrivals
import RiakClient.ReadSource
import RiakClient.Exchange
import RiakClient.Libevent
import RiakClient.EventLoop
import RiakClient.Decoders
import RiakClient.Replies
import RiakClient.Prepared
import RiakClient.SyncSession
import RiakClient.AsyncCalls
import RiakClient.Bookkeeping
import RiakClient.StoredObjects
import RiakClient.StoredOperations
import RiakClient.StoredResponses
import RiakClient.StoredListings
import RiakClient.StoredRequests
import RiakClient.StoredCalls
import RiakClient.StoredEdits
import RiakClient.StoredBucketprops
